import Mathlib
import VerlVla.Checks
import VerlVla.KeyedRows

/-!
# Returns of recorded episodes

The return of a frame is the number of frames left in its episode, with a
penalty if the episode failed, over a denominator of its task.  The denominator
comes from the longest episode of the task.
-/

namespace VerlVla

open List hiding cons groupByKey lookup nil
namespace Recap

structure ReturnFrame where
  index : ℤ
  episodeIndex : ℤ
  frameIndex : ℤ
  taskKey : ℤ
  reward : ℚ
  terminated : Bool
  truncated : Bool
  success : Bool
  deriving DecidableEq

structure ReturnConfig where
  cFailCoef : ℚ
  clipMin : ℚ
  clipMax : ℚ

inductive ReturnError
  | failCoefficient
  | clipRange
  | denominator (task : ℤ) (denom : ℚ)
  | fieldType (field dtype : String)
  | missingIndex (index : ℤ)
  | missingField (field : String)
  deriving DecidableEq

/-! ## The lookup -/

/-- The order of the records. -/
def frameKey (frame : ReturnFrame) : ℤ ×ₗ ℤ ×ₗ ℤ :=
  toLex (frame.episodeIndex, toLex (frame.frameIndex, frame.index))

def episodesOf (frames : List ReturnFrame) : List (ℤ × List ReturnFrame) :=
  groupByKey ReturnFrame.episodeIndex (sortByKey frameKey frames)

def episodeTask : List ReturnFrame → ℤ
  | [] => 0
  | frame :: _ => frame.taskKey

def taskMaxLengths (episodes : List (ℤ × List ReturnFrame)) : ℤ → ℕ :=
  episodes.foldl (fun lengths episode =>
    Function.update lengths (episodeTask episode.2)
      (max (lengths (episodeTask episode.2)) episode.2.length)) fun _ => 0

def clip (value low high : ℚ) : ℚ := min (max value low) high

def cFail (config : ReturnConfig) (taskMax : ℕ) : ℚ :=
  taskMax * config.cFailCoef

def returnDenominator (config : ReturnConfig) (taskMax : ℕ) : ℚ :=
  taskMax + cFail config taskMax

/-- The return of a frame before it is normalized. -/
def target (config : ReturnConfig) (taskMax : ℕ) (success : Bool)
    (remainingSteps : ℕ) : ℚ :=
  if success then -remainingSteps
  else -remainingSteps - cFail config taskMax

def episodeReturns (config : ReturnConfig) (taskMaxLengths : ℤ → ℕ)
    (episode : ℤ × List ReturnFrame) :
    Except ReturnError (List (ℤ × ℚ)) := do
  let task := episodeTask episode.2
  let taskMax := taskMaxLengths task
  let denom := returnDenominator config taskMax
  require (0 < denom) (.denominator task denom)
  let success := episode.2.any ReturnFrame.success
  .ok (episode.2.mapIdx fun offset frame =>
    (frame.index, clip (target config taskMax success
        (episode.2.length - offset - 1) / denom)
          config.clipMin config.clipMax))

def computeReturnLookup (config : ReturnConfig)
    (files : List (List ReturnFrame)) :
    Except ReturnError (List (ℤ × ℚ)) := do
  require (0 ≤ config.cFailCoef) .failCoefficient
  require (config.clipMin < config.clipMax) .clipRange
  let episodes := episodesOf files.flatten
  let returns ← episodes.mapM (episodeReturns config (taskMaxLengths episodes))
  .ok returns.flatten

/-! ## The columns of a file -/

inductive Column
  | float32 (values : List ℚ)
  | int64 (values : List ℤ)
  deriving DecidableEq

structure FieldNames where
  returnField : String
  valueField : String
  advantageField : String
  indicatorField : String

def FieldNames.recapFields (names : FieldNames) : List (String × String) :=
  [(names.returnField, "float32"), (names.valueField, "float32"),
    (names.advantageField, "float32"), (names.indicatorField, "int64")]

def returnColumn (returnLookup : List (ℤ × ℚ)) (file : List ReturnFrame) :
    Except ReturnError (List ℚ) :=
  file.mapM fun frame =>
    match lastValue returnLookup frame.index with
    | some value => .ok value
    | none => .error (.missingIndex frame.index)

def columnOf (names : FieldNames) (returnLookup : List (ℤ × ℚ))
    (file : List ReturnFrame) (field : String) :
    Except ReturnError (String × Column) :=
  if field = names.returnField then
    (returnColumn returnLookup file).map fun values =>
      (field, .float32 values)
  else
    match lastValue names.recapFields field with
    | none => .error (.missingField field)
    | some dtype =>
      if dtype = "float32" then
        .ok (field, .float32 (file.map fun _ => 0))
      else if dtype = "int64" then
        .ok (field, .int64 (file.map fun _ => 0))
      else .error (.fieldType field dtype)

def ensureRecapColumnsForFile (names : FieldNames)
    (missingColumns : List String) (returnLookup : List (ℤ × ℚ))
    (file : List ReturnFrame) :
    Except ReturnError (List (String × Column)) :=
  (names.returnField :: missingColumns.filter (· ≠ names.returnField)).mapM
      (columnOf names returnLookup file)

def ensureRecapFieldsForDataset (config : ReturnConfig)
    (names : FieldNames) (existingColumns : List String)
    (files : List (List ReturnFrame)) :
    Except ReturnError (List (List (String × Column))) := do
  let missingColumns := (names.recapFields.map Prod.fst).eraseDups.filter
    (· ∉ existingColumns)
  let lookup ← computeReturnLookup config files
  files.mapM (ensureRecapColumnsForFile names missingColumns lookup)

def returnOf (config : ReturnConfig) (files : List (List ReturnFrame))
    (index : ℤ) : ℚ :=
  ((computeReturnLookup config files).toOption.bind
    fun lookup => lastValue lookup index).getD 0

/-! ## Episodes -/

def episodeFrames (frames : List ReturnFrame) (episode : ℤ) :
    List ReturnFrame :=
  sortByKey frameKey (frames.filter fun frame => frame.episodeIndex = episode)

def taskOf (frames : List ReturnFrame) (episode : ℤ) : ℤ :=
  episodeTask (episodeFrames frames episode)

def longest (frames : List ReturnFrame) (task : ℤ) : ℕ :=
  ((frames.map ReturnFrame.episodeIndex).toFinset.filter
    fun episode => taskOf frames episode = task).sup
      fun episode => (episodeFrames frames episode).length

def succeeded (frames : List ReturnFrame) (episode : ℤ) : Bool :=
  (episodeFrames frames episode).any ReturnFrame.success

section Episodes

variable {frames : List ReturnFrame} {episode task : ℤ} {frame : ReturnFrame}

theorem frameKey_injOn (hframes : (frames.map ReturnFrame.index).Nodup) :
    Set.InjOn frameKey {frame | frame ∈ frames} := by
  intro first hfirst second hsecond heq
  apply inj_on_of_nodup_map hframes hfirst hsecond
  have hpair := congrArg (fun key => (ofLex (ofLex key).2).2) heq
  exact hpair

theorem mem_episodeFrames : frame ∈ episodeFrames frames episode ↔
    frame ∈ frames ∧ frame.episodeIndex = episode := by
  simp [episodeFrames]

theorem mem_episodesOf (hframes : (frames.map ReturnFrame.index).Nodup) :
    (episode, group) ∈ episodesOf frames ↔
      group ≠ [] ∧ group = episodeFrames frames episode := by
  rw [episodesOf, mem_groupByKey, filter_sortByKey (frameKey_injOn hframes)]
  rfl

theorem taskMaxLengths_le : taskMaxLengths episodes task ≤ bound ↔
      ∀ group ∈ episodes, episodeTask group.2 = task →
        group.2.length ≤ bound := by
  induction episodes using reverseRecOn with
  | nil => simp [taskMaxLengths]
  | append_singleton episodes group ih =>
    have hfold : taskMaxLengths (episodes ++ [group]) =
        Function.update (taskMaxLengths episodes) (episodeTask group.2)
          (max (taskMaxLengths episodes (episodeTask group.2))
            group.2.length) := by
      rw [taskMaxLengths, foldl_append]
      rfl
    rw [hfold, forall_mem_append, forall_mem_singleton]
    by_cases htask : episodeTask group.2 = task
    · rw [← htask] at ih ⊢
      rw [Function.update_self, max_le_iff, ih]
      simp
    · rw [Function.update_of_ne (Ne.symm htask), ih]
      simp [htask]

theorem taskMaxLengths_eq (hframes : (frames.map ReturnFrame.index).Nodup) :
    taskMaxLengths (episodesOf frames) = longest frames := by
  funext task
  apply eq_of_forall_ge_iff
  intro bound
  rw [taskMaxLengths_le, longest, Finset.sup_le_iff]
  simp only [Finset.mem_filter, mem_toFinset, mem_map]
  constructor
  · rintro hgroups episode ⟨⟨frame, hframe, hepisode⟩, htask⟩
    apply hgroups (episode, episodeFrames frames episode) _ htask
    apply (mem_episodesOf hframes).mpr
    refine ⟨?_, rfl⟩
    exact ne_nil_of_mem (mem_episodeFrames.mpr ⟨hframe, hepisode⟩)
  · rintro hepisodes ⟨episode, group⟩ hgroup htask
    obtain ⟨hne, heq⟩ := (mem_episodesOf hframes).mp hgroup
    obtain ⟨frame, hframe⟩ := exists_mem_of_ne_nil group hne
    rw [heq] at hframe htask
    have hlength := hepisodes episode
      ⟨⟨frame, mem_episodeFrames.mp hframe⟩, htask⟩
    rw [← heq] at hlength
    exact hlength

theorem length_le_longest (hframe : frame ∈ frames) :
    (episodeFrames frames frame.episodeIndex).length ≤
      longest frames (taskOf frames frame.episodeIndex) := by
  have hepisode : frame.episodeIndex ∈
      (frames.map ReturnFrame.episodeIndex).toFinset.filter fun episode =>
        taskOf frames episode = taskOf frames frame.episodeIndex := by
    rw [Finset.mem_filter, mem_toFinset]
    exact ⟨mem_map_of_mem hframe, rfl⟩
  exact Finset.le_sup
    (f := fun episode => (episodeFrames frames episode).length) hepisode

end Episodes

/-! ## The return of a frame -/

def normalized (config : ReturnConfig) (frames : List ReturnFrame)
    (episode : ℤ) (offset : ℕ) : ℚ :=
  let taskMax := longest frames (taskOf frames episode)
  target config taskMax (succeeded frames episode)
    ((episodeFrames frames episode).length - offset - 1) /
      returnDenominator config taskMax

structure ReturnSetting where
  config : ReturnConfig
  files : List (List ReturnFrame)
  distinct : (files.flatten.map ReturnFrame.index).Nodup
  coefficient_ge : 1 ≤ config.cFailCoef
  clipMin_le : config.clipMin ≤ -1
  clipMax_ge : 0 ≤ config.clipMax

namespace ReturnSetting

variable (setting : ReturnSetting) {episode : ℤ} {offset : ℕ}
  {frame : ReturnFrame}

def frames : List ReturnFrame := setting.files.flatten

def denominatorOf (task : ℤ) : ℚ :=
  returnDenominator setting.config (longest setting.frames task)

def returnOf (frame : ReturnFrame) : ℚ :=
  Recap.returnOf setting.config setting.files frame.index

theorem indices : (setting.frames.map ReturnFrame.index).Nodup :=
  setting.distinct

variable {setting}

theorem denominatorOf_eq (task : ℤ) : setting.denominatorOf task =
    longest setting.frames task * (1 + setting.config.cFailCoef) := by
  unfold denominatorOf returnDenominator cFail
  ring

section

variable
  (hframe : (episodeFrames setting.frames episode)[offset]? = some frame)

include hframe

theorem offset_lt : offset < (episodeFrames setting.frames episode).length :=
  (List.getElem?_eq_some_iff.mp hframe).1

theorem length_le : (episodeFrames setting.frames episode).length ≤
        longest setting.frames (taskOf setting.frames episode) := by
  obtain ⟨hmember, hepisode⟩ := mem_episodeFrames.mp (mem_of_getElem? hframe)
  have hlongest := length_le_longest hmember
  rw [hepisode] at hlongest
  exact hlongest

theorem longest_pos :
    (1 : ℚ) ≤ longest setting.frames (taskOf setting.frames episode) := by
  have hlength := length_le hframe
  have hoffset := offset_lt hframe
  have hpos : 1 ≤ longest setting.frames (taskOf setting.frames episode) := by
    omega
  exact_mod_cast hpos

theorem denominatorOf_pos :
    0 < setting.denominatorOf (taskOf setting.frames episode) := by
  have hpos := longest_pos hframe
  have hcoef := setting.coefficient_ge
  rw [denominatorOf_eq]
  apply mul_pos <;> linarith

/-- The return is the number of frames left, and the penalty of a failed
episode, over the denominator. -/
theorem normalized_mul :
    normalized setting.config setting.frames episode offset *
        setting.denominatorOf (taskOf setting.frames episode) =
      offset + 1 - (episodeFrames setting.frames episode).length -
        if succeeded setting.frames episode then 0
        else longest setting.frames (taskOf setting.frames episode) *
          setting.config.cFailCoef := by
  have hoffset := offset_lt hframe
  have hleft : (((episodeFrames setting.frames episode).length - offset -
      1 : ℕ) : ℚ) =
      (episodeFrames setting.frames episode).length - offset - 1 := by
    rw [Nat.cast_sub (by omega), Nat.cast_sub hoffset.le, Nat.cast_one]
  have hdenominator := denominatorOf_pos hframe
  unfold normalized
  change target _ _ _ _ / setting.denominatorOf _ * setting.denominatorOf _ = _
  rw [div_mul_cancel₀ _ hdenominator.ne', target, hleft]
  cases succeeded setting.frames episode with
  | true =>
    simp only [if_true]
    ring
  | false =>
    simp only [Bool.false_eq_true, if_false, cFail]
    ring

theorem normalized_bounds :
    -1 ≤ normalized setting.config setting.frames episode offset ∧
      normalized setting.config setting.frames episode offset ≤ 0 := by
  have hvalue := normalized_mul hframe
  have hpos := denominatorOf_pos hframe
  have hsum : setting.denominatorOf (taskOf setting.frames episode) =
      longest setting.frames (taskOf setting.frames episode) *
        (1 + setting.config.cFailCoef) := denominatorOf_eq _
  have hcoef := setting.coefficient_ge
  have hlongest := longest_pos hframe
  have hlength : ((episodeFrames setting.frames episode).length : ℚ) ≤
      longest setting.frames (taskOf setting.frames episode) := by
    exact_mod_cast length_le hframe
  have hoffset : (offset : ℚ) + 1 ≤
      (episodeFrames setting.frames episode).length := by
    exact_mod_cast offset_lt hframe
  have hpenalty : 0 ≤ longest setting.frames (taskOf setting.frames episode) *
      setting.config.cFailCoef := by
    apply mul_nonneg <;> linarith
  have hstart : (0 : ℚ) ≤ offset := Nat.cast_nonneg offset
  constructor
  · apply le_of_mul_le_mul_right _ hpos
    rw [hvalue, hsum]
    split_ifs <;> linarith
  · apply le_of_mul_le_mul_right _ hpos
    rw [hvalue]
    split_ifs <;> linarith

theorem clip_normalized :
    clip (normalized setting.config setting.frames episode offset)
        setting.config.clipMin setting.config.clipMax =
      normalized setting.config setting.frames episode offset := by
  obtain ⟨hlow, hhigh⟩ := normalized_bounds hframe
  have hmin := setting.clipMin_le
  have hmax := setting.clipMax_ge
  rw [clip, max_eq_left (by linarith), min_eq_left (by linarith)]

end

/-! ## What is written -/

def entries (setting : ReturnSetting) (episode : ℤ) : List (ℤ × ℚ) :=
  (episodeFrames setting.frames episode).mapIdx fun offset frame =>
    (frame.index, normalized setting.config setting.frames episode offset)

theorem episodeReturns_ok
    (hgroup : (episode, group) ∈ episodesOf setting.frames) :
    episodeReturns setting.config
        (taskMaxLengths (episodesOf setting.frames)) (episode, group) =
      .ok (setting.entries episode) := by
  obtain ⟨hne, heq⟩ := (mem_episodesOf setting.indices).mp hgroup
  have hlength : 0 < group.length := length_pos_iff.mpr hne
  have hfirst : (episodeFrames setting.frames episode)[0]? =
      some group[0] := by
    rw [← heq, getElem?_eq_getElem hlength]
  have hpos := denominatorOf_pos hfirst
  have hlengths : taskMaxLengths (episodesOf setting.frames) =
      longest setting.frames := taskMaxLengths_eq setting.indices
  rw [heq]
  unfold episodeReturns
  simp only [hlengths]
  change (require (0 < setting.denominatorOf
    (taskOf setting.frames episode)) _ >>= fun _ => Except.ok _) = _
  rw [require_of hpos]
  change Except.ok _ = Except.ok _
  congr 1
  unfold entries
  apply ext_getElem?
  intro offset
  rw [getElem?_mapIdx, getElem?_mapIdx]
  cases hframe : (episodeFrames setting.frames episode)[offset]? with
  | none => rfl
  | some frame =>
    have hclip := clip_normalized hframe
    exact congrArg (fun value => some (frame.index, value)) hclip

theorem computeReturnLookup_ok :
    computeReturnLookup setting.config setting.files =
      .ok ((episodesOf setting.frames).flatMap fun group =>
        setting.entries group.1) := by
  have hcoef : 0 ≤ setting.config.cFailCoef := by
    linarith [setting.coefficient_ge]
  have hrange : setting.config.clipMin < setting.config.clipMax := by
    linarith [setting.clipMin_le, setting.clipMax_ge]
  have hreturns : (episodesOf setting.frames).mapM
      (episodeReturns setting.config
        (taskMaxLengths (episodesOf setting.frames))) =
      .ok ((episodesOf setting.frames).map fun group =>
        setting.entries group.1) :=
    mapM_eq_ok_map fun group hgroup => episodeReturns_ok hgroup
  unfold computeReturnLookup
  rw [require_of hcoef, require_of hrange]
  change ((episodesOf setting.frames).mapM (episodeReturns setting.config
    (taskMaxLengths (episodesOf setting.frames))) >>= fun returns =>
      Except.ok returns.flatten) = _
  rw [hreturns, flatMap_def]
  rfl

theorem nodup_entries : (((episodesOf setting.frames).flatMap fun group =>
    setting.entries group.1).map Prod.fst).Nodup := by
  have hkeys : (((episodesOf setting.frames).flatMap fun group =>
      setting.entries group.1).map Prod.fst) =
      ((episodesOf setting.frames).flatMap Prod.snd).map
        ReturnFrame.index := by
    rw [map_flatMap, map_flatMap]
    apply flatMap_congr
    intro group hgroup
    have heq := ((mem_episodesOf setting.indices).mp hgroup).2
    rw [heq, entries]
    apply ext_getElem <;> simp
  have hperm : ((episodesOf setting.frames).flatMap Prod.snd).Perm
      setting.frames := (perm_groupByKey _).trans sortByKey_perm
  rw [hkeys]
  exact ((hperm.map ReturnFrame.index).nodup_iff).mpr setting.indices

theorem lastValue_lookup (hframe :
      (episodeFrames setting.frames episode)[offset]? = some frame) :
    lastValue ((episodesOf setting.frames).flatMap fun group =>
        setting.entries group.1) frame.index =
      some (normalized setting.config setting.frames episode offset) := by
  apply lastValue_of_mem nodup_entries
  have hmember := mem_of_getElem? hframe
  rw [mem_flatMap]
  refine ⟨(episode, episodeFrames setting.frames episode),
    (mem_episodesOf setting.indices).mpr ⟨ne_nil_of_mem hmember, rfl⟩, ?_⟩
  apply mem_of_getElem?
  unfold entries
  rw [getElem?_mapIdx, hframe]
  rfl

theorem returnOf_eq (hframe :
      (episodeFrames setting.frames episode)[offset]? = some frame) :
    setting.returnOf frame =
      normalized setting.config setting.frames episode offset := by
  unfold returnOf Recap.returnOf
  rw [computeReturnLookup_ok]
  change (lastValue _ frame.index).getD 0 = _
  rw [lastValue_lookup hframe]
  rfl

theorem exists_offset (hframe : frame ∈ setting.frames) : ∃ offset : ℕ,
      (episodeFrames setting.frames frame.episodeIndex)[offset]? =
        some frame :=
  mem_iff_getElem?.mp (mem_episodeFrames.mpr ⟨hframe, rfl⟩)

theorem returnColumn_ok {file : List ReturnFrame}
    (hfile : ∀ frame ∈ file, frame ∈ setting.frames) :
    returnColumn ((episodesOf setting.frames).flatMap fun group =>
        setting.entries group.1) file =
      .ok (file.map setting.returnOf) := by
  apply mapM_eq_ok_map
  intro frame hframe
  obtain ⟨offset, hoffset⟩ := exists_offset (hfile frame hframe)
  rw [lastValue_lookup hoffset, returnOf_eq hoffset]

theorem columnOf_ok {names : FieldNames} {returnLookup : List (ℤ × ℚ)}
    {file : List ReturnFrame} {field : String}
    (hother : field ≠ names.returnField)
    (hfield : field ∈ names.recapFields.map Prod.fst) :
    ∃ column, columnOf names returnLookup file field = .ok column := by
  obtain ⟨dtype, hdtype, hmember⟩ := exists_lastValue hfield
  unfold columnOf
  rw [if_neg hother, hdtype]
  simp only [FieldNames.recapFields, mem_cons, Prod.mk.injEq,
    not_mem_nil, or_false] at hmember
  rcases hmember with ⟨_, rfl⟩ | ⟨_, rfl⟩ | ⟨_, rfl⟩ | ⟨_, rfl⟩
  · exact ⟨_, rfl⟩
  · exact ⟨_, rfl⟩
  · exact ⟨_, rfl⟩
  · exact ⟨_, rfl⟩

theorem exists_mapM_eq_ok {ε α β : Type} {f : α → Except ε β}
    {relation : α → β → Prop} {items : List α}
    (hitems : ∀ item ∈ items, ∃ value, f item = .ok value ∧
      relation item value) :
    ∃ values, items.mapM f = .ok values ∧ Forall₂ relation items values := by
  induction items with
  | nil => exact ⟨[], rfl, .nil⟩
  | cons item items ih =>
    obtain ⟨value, hvalue, hrelated⟩ := hitems item mem_cons_self
    obtain ⟨values, hvalues, hrest⟩ := ih fun other hother =>
      hitems other (mem_cons_of_mem item hother)
    refine ⟨value :: values, ?_, .cons hrelated hrest⟩
    rw [mapM_cons, hvalue, hvalues]
    rfl

theorem columns_ok (names : FieldNames) (existingColumns : List String) :
    ∃ columns, ensureRecapFieldsForDataset setting.config names
        existingColumns setting.files = .ok columns ∧
      Forall₂ (fun file written =>
        written.lookup names.returnField =
          some (.float32 (file.map setting.returnOf)))
        setting.files columns := by
  have hfile : ∀ file ∈ setting.files, ∃ written,
      ensureRecapColumnsForFile names
        ((names.recapFields.map Prod.fst).eraseDups.filter
          (· ∉ existingColumns))
        ((episodesOf setting.frames).flatMap fun group =>
          setting.entries group.1) file = .ok written ∧
      written.lookup names.returnField =
        some (.float32 (file.map setting.returnOf)) := by
    intro file hmember
    have hcolumn : returnColumn ((episodesOf setting.frames).flatMap
        fun group => setting.entries group.1) file =
        .ok (file.map setting.returnOf) :=
      returnColumn_ok fun frame hframe =>
        mem_flatten.mpr ⟨file, hmember, hframe⟩
    have hothers : ∀ field ∈ ((names.recapFields.map
        Prod.fst).eraseDups.filter (· ∉ existingColumns)).filter
          (· ≠ names.returnField),
        ∃ column, columnOf names ((episodesOf setting.frames).flatMap
          fun group => setting.entries group.1) file field =
            .ok column ∧ True := by
      intro field hfield
      rw [mem_filter, mem_filter, mem_eraseDups, decide_eq_true_eq] at hfield
      obtain ⟨column, hok⟩ :=
        columnOf_ok (of_decide_eq_true hfield.2) hfield.1.1
      exact ⟨column, hok, trivial⟩
    obtain ⟨columns, hcolumns, _⟩ := exists_mapM_eq_ok hothers
    refine ⟨(names.returnField, .float32 (file.map setting.returnOf)) ::
      columns, ?_, lookup_cons_self⟩
    unfold ensureRecapColumnsForFile
    rw [mapM_cons, hcolumns, columnOf, if_pos rfl, hcolumn]
    rfl
  obtain ⟨columns, hcolumns, hwritten⟩ := exists_mapM_eq_ok hfile
  refine ⟨columns, ?_, hwritten⟩
  unfold ensureRecapFieldsForDataset
  rw [computeReturnLookup_ok]
  exact hcolumns

def AgreeOn (setting other : ReturnSetting) (task : ℤ) : Prop :=
  ∀ episode, taskOf setting.frames episode = task ∨
      taskOf other.frames episode = task →
    (setting.frames.filter fun frame => frame.episodeIndex = episode).Perm
      (other.frames.filter fun frame => frame.episodeIndex = episode)

section

variable {other : ReturnSetting} (hagree : AgreeOn setting other task)

include hagree

theorem AgreeOn.episodeFrames (htask : taskOf setting.frames episode = task ∨
      taskOf other.frames episode = task) :
    episodeFrames setting.frames episode =
      episodeFrames other.frames episode := by
  apply sortByKey_of_perm _ (hagree episode htask)
  intro first hfirst second hsecond heq
  exact frameKey_injOn other.indices (mem_of_mem_filter hfirst)
    (mem_of_mem_filter hsecond) heq

theorem AgreeOn.symm : AgreeOn other setting task :=
  fun episode htask => (hagree episode htask.symm).symm

theorem AgreeOn.longest_le :
    longest setting.frames task ≤ longest other.frames task := by
  apply Finset.sup_le
  intro episode hepisode
  rw [Finset.mem_filter, mem_toFinset, mem_map] at hepisode
  obtain ⟨⟨frame, hframe, hindex⟩, htask⟩ := hepisode
  have hsame := hagree.episodeFrames (.inl htask)
  have hother : frame ∈ other.frames := by
    have hmember : frame ∈ Recap.episodeFrames setting.frames episode :=
      mem_episodeFrames.mpr ⟨hframe, hindex⟩
    rw [hsame] at hmember
    exact (mem_episodeFrames.mp hmember).1
  have hlength := length_le_longest hother
  have htask' : taskOf other.frames episode = task := by
    rw [taskOf, ← hsame]
    exact htask
  rw [hindex, htask', ← hsame] at hlength
  exact hlength

end

/-- A return depends on the frames of the episodes of its task only. -/
theorem AgreeOn.returnOf_eq (hconfig : other.config = setting.config)
    (hframe : frame ∈ setting.frames) (hagree : AgreeOn setting other
      (taskOf setting.frames frame.episodeIndex)) :
    other.returnOf frame = setting.returnOf frame := by
  obtain ⟨offset, hoffset⟩ := exists_offset hframe
  have hsame := hagree.episodeFrames (.inl rfl)
  have hother : (Recap.episodeFrames other.frames
      frame.episodeIndex)[offset]? = some frame := by
    rw [← hsame]
    exact hoffset
  have htask : taskOf other.frames frame.episodeIndex =
      taskOf setting.frames frame.episodeIndex := by
    rw [taskOf, taskOf, hsame]
  have hlongest := le_antisymm hagree.longest_le hagree.symm.longest_le
  rw [ReturnSetting.returnOf_eq hoffset, ReturnSetting.returnOf_eq hother]
  unfold normalized succeeded
  rw [htask, ← hlongest, ← hsame, hconfig]

end ReturnSetting

/-- A success of two frames in two files, and a failure of one frame. -/
def twoEpisodes : ReturnSetting where
  config := ⟨1, -1, 0⟩
  files := [[⟨1, 0, 1, 0, 1, true, false, true⟩],
    [⟨0, 0, 0, 0, 0, false, false, false⟩,
      ⟨2, 1, 0, 0, 0, false, true, false⟩]]
  distinct := by decide
  coefficient_ge := le_refl 1
  clipMin_le := le_refl (-1)
  clipMax_ge := le_refl 0

end Recap
end VerlVla
