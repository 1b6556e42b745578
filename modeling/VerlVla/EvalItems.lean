import Mathlib.Data.List.Nodup
import VerlVla.BatchSlices
import VerlVla.Checks
import VerlVla.LaneShares

/-!
# The items of a fixed evaluation

The spec of an evaluation is expanded into work items, one for each policy,
target and repeat.  Compatible items are bundled for one evaluator process.
-/

namespace VerlVla

open List hiding cons contains count nil or

structure EvalPolicy where
  label : String
  expectedSourceVerlGlobalStep : Option ℕ
  verlActorCheckpoint : String
  deriving DecidableEq

structure EvalTarget where
  taskName : String
  taskId : ℕ
  suiteId : ℕ
  layoutId : ℕ
  policySeeds : List ℕ
  deriving DecidableEq

structure EvalTopology where
  numEnvs : ℕ
  policyMicrobatchSize : ℕ
  maxPolicyCalls : ℕ
  processScoreReduction : String
  deriving DecidableEq

structure EvalSpec where
  policies : List EvalPolicy
  targets : List EvalTarget
  repeats : ℕ
  topology : EvalTopology
  attemptsPerItem : ℕ
  deriving DecidableEq

structure WorkItem where
  itemId : String
  policyLabel : String
  taskName : String
  taskId : ℕ
  suiteId : ℕ
  layoutId : ℕ
  policySeeds : List ℕ
  repeatIndex : ℕ
  deriving DecidableEq

structure RunManifest where
  spec : EvalSpec
  workItems : List WorkItem
  deriving DecidableEq

inductive EvalError
  | repeats
  | noPolicies
  | noTargets
  | policyLabel (label : String)
  | numEnvs
  | policyMicrobatchSize
  | processScoreReduction
  | maxPolicyCalls
  | taskName (task : String)
  | duplicateTarget (task : String) (suite layout : ℕ)
  | seedCount (task : String) (suite layout count : ℕ)
  | duplicateSeeds (task : String) (suite layout : ℕ)
  | duplicateItemIds
  | workItemsChanged
  | itemsPerEvaluator
  | duplicateCases (itemIds : List String)
  | incompatibleItems
  | vectorSize
  | invalidLane (lane laneCount : ℕ)
  | physicalLaneCount
  | evaluatorsPerGpu
  | noBundles
  | emptyBundle
  | duplicateRecoveryItem (itemId : String)
  | unknownRecoveryItem (itemId : String)
  deriving DecidableEq

/-! ## The spec -/

def isLabelChar (char : Char) : Bool :=
  char.isAlphanum || char = '_' || char = '.' || char = '-'

def isTaskChar (char : Char) : Bool := char.isAlphanum || char = '_'

def matchesAll (allowed : Char → Bool) (text : String) : Bool :=
  !text.isEmpty && text.toList.all allowed

def EvalTarget.key (target : EvalTarget) : String × ℕ × ℕ :=
  (target.taskName, target.suiteId, target.layoutId)

def checkPolicies (seen : List String) :
    List EvalPolicy → Except EvalError Unit
  | [] => .ok ()
  | policy :: rest => do
    require (matchesAll isLabelChar policy.label ∧ policy.label ∉ seen)
      (.policyLabel policy.label)
    checkPolicies (policy.label :: seen) rest

def checkTargets (numEnvs : ℕ) (seen : List (String × ℕ × ℕ)) :
    List EvalTarget → Except EvalError Unit
  | [] => .ok ()
  | target :: rest => do
    require (matchesAll isTaskChar target.taskName) (.taskName target.taskName)
    require (target.key ∉ seen)
      (.duplicateTarget target.taskName target.suiteId target.layoutId)
    require (target.policySeeds.length = numEnvs)
      (.seedCount target.taskName target.suiteId target.layoutId numEnvs)
    require target.policySeeds.Nodup
      (.duplicateSeeds target.taskName target.suiteId target.layoutId)
    checkTargets numEnvs (target.key :: seen) rest

def validateSpec (spec : EvalSpec) : Except EvalError Unit := do
  require (1 ≤ spec.repeats) .repeats
  require (spec.policies ≠ []) .noPolicies
  require (spec.targets ≠ []) .noTargets
  checkPolicies [] spec.policies
  require (1 ≤ spec.topology.numEnvs) .numEnvs
  require (1 ≤ spec.topology.policyMicrobatchSize ∧
    spec.topology.policyMicrobatchSize ≤ spec.topology.numEnvs)
    .policyMicrobatchSize
  require (spec.topology.processScoreReduction = "terminal")
    .processScoreReduction
  require (1 ≤ spec.topology.maxPolicyCalls) .maxPolicyCalls
  checkTargets spec.topology.numEnvs [] spec.targets

def paddedDigits (width number : ℕ) : List Char :=
  let digits := Nat.toDigits 10 number
  replicate (width - digits.length) '0' ++ digits

def workItemId (label task : String) (suite layout repeatIndex : ℕ) : String :=
  label ++ "__" ++ task ++ "__s" ++ String.ofList (paddedDigits 2 suite) ++
    "__l" ++ String.ofList (paddedDigits 3 layout) ++
    "__r" ++ String.ofList (paddedDigits 2 repeatIndex)

def workItemOf (policy : EvalPolicy) (target : EvalTarget) (repeatIndex : ℕ) :
    WorkItem where
  itemId := workItemId policy.label target.taskName target.suiteId
    target.layoutId repeatIndex
  policyLabel := policy.label
  taskName := target.taskName
  taskId := target.taskId
  suiteId := target.suiteId
  layoutId := target.layoutId
  policySeeds := target.policySeeds
  repeatIndex := repeatIndex

def expandedItems (spec : EvalSpec) : List WorkItem :=
  spec.policies.flatMap fun policy =>
    spec.targets.flatMap fun target =>
      (range spec.repeats).map (workItemOf policy target)

def buildWorkItems (spec : EvalSpec) : Except EvalError (List WorkItem) :=
  let items := expandedItems spec
  if (items.map WorkItem.itemId).Nodup then .ok items
  else .error .duplicateItemIds

def loadRunManifest (manifest : RunManifest) :
    Except EvalError RunManifest := do
  validateSpec manifest.spec
  let expected ← buildWorkItems manifest.spec
  require (manifest.workItems = expected) .workItemsChanged
  .ok manifest

/-- What items of one evaluator process have in common. -/
structure CoalescingKey where
  policyLabel : String
  taskName : String
  taskId : ℕ
  suiteId : ℕ
  repeatIndex : ℕ
  deriving DecidableEq

def WorkItem.coalescingKey (item : WorkItem) : CoalescingKey :=
  ⟨item.policyLabel, item.taskName, item.taskId, item.suiteId, item.repeatIndex⟩

def WorkItem.cases (item : WorkItem) : List (ℕ × ℕ) :=
  item.policySeeds.map fun seed => (item.layoutId, seed)

def coalescedGroups (items : List WorkItem) (itemsPerEvaluator : ℕ) :
    List (List WorkItem) :=
  (groupInOrder WorkItem.coalescingKey items).flatMap fun group =>
    splitRows itemsPerEvaluator group.2

def coalescedItemBundles (items : List WorkItem) (itemsPerEvaluator : ℕ) :
    Except EvalError (List (List WorkItem)) :=
  if itemsPerEvaluator < 1 then .error .itemsPerEvaluator
  else
    let bundles := coalescedGroups items itemsPerEvaluator
    match bundles.find? fun bundle =>
        ¬ (bundle.flatMap WorkItem.cases).Nodup with
    | some bundle => .error (.duplicateCases (bundle.map WorkItem.itemId))
    | none => .ok bundles

/-! ## What a loaded manifest promises -/

structure WorkItem.WellFormed (numEnvs : ℕ) (item : WorkItem) : Prop where
  itemId : item.itemId = workItemId item.policyLabel item.taskName
    item.suiteId item.layoutId item.repeatIndex
  seedCount : item.policySeeds.length = numEnvs
  seeds : item.policySeeds.Nodup

theorem seeds_of_checkTargets
    (hcheck : checkTargets numEnvs seen targets = .ok ()) :
    ∀ target ∈ targets, target.policySeeds.length = numEnvs ∧
      target.policySeeds.Nodup := by
  induction targets generalizing seen with
  | nil => exact fun _ htarget => absurd htarget not_mem_nil
  | cons first rest ih =>
    unfold checkTargets at hcheck
    simp only [require_bind_eq_ok] at hcheck
    obtain ⟨-, -, hcount, hseeds, hrest⟩ := hcheck
    intro target htarget
    cases mem_cons.mp htarget with
    | inl hfirst =>
      rw [hfirst]
      exact ⟨hcount, hseeds⟩
    | inr hlater => exact ih hrest target hlater

structure LoadedManifest (manifest : RunManifest) : Prop where
  numEnvs : 1 ≤ manifest.spec.topology.numEnvs
  itemIds : (manifest.workItems.map WorkItem.itemId).Nodup
  items : ∀ item ∈ manifest.workItems,
    item.WellFormed manifest.spec.topology.numEnvs

theorem loadedManifest (hload : loadRunManifest manifest = .ok loaded) :
    loaded = manifest ∧ LoadedManifest manifest := by
  unfold loadRunManifest at hload
  obtain ⟨_, hspec, hload⟩ := bind_eq_ok.mp hload
  obtain ⟨expected, hbuild, hload⟩ := bind_eq_ok.mp hload
  obtain ⟨hitems, hload⟩ := require_bind_eq_ok.mp hload
  refine ⟨(Except.ok.inj hload).symm, ?_⟩
  unfold buildWorkItems at hbuild
  simp only at hbuild
  split_ifs at hbuild with hids
  cases hbuild
  unfold validateSpec at hspec
  simp only [bind_eq_ok, require_eq_ok] at hspec
  obtain ⟨-, -, -, -, -, -, -, -, -, hnumEnvs, -, -, -, -, -, -, htargets⟩ :=
    hspec
  have hseeds := seeds_of_checkTargets htargets
  constructor
  · exact hnumEnvs
  · rw [hitems]
    exact hids
  · intro item hitem
    rw [hitems] at hitem
    obtain ⟨policy, -, hitem⟩ := mem_flatMap.mp hitem
    obtain ⟨target, htarget, hitem⟩ := mem_flatMap.mp hitem
    obtain ⟨count, -, rfl⟩ := mem_map.mp hitem
    exact ⟨rfl, (hseeds target htarget).1, (hseeds target htarget).2⟩

theorem disjoint_cases {left right : WorkItem}
    (hleft : left.WellFormed numEnvs) (hright : right.WellFormed numEnvs)
    (hkey : left.coalescingKey = right.coalescingKey)
    (hids : left.itemId ≠ right.itemId) :
    List.Disjoint left.cases right.cases := by
  intro case hfirst hsecond
  obtain ⟨seed, -, rfl⟩ := mem_map.mp hfirst
  obtain ⟨other, -, hcase⟩ := mem_map.mp hsecond
  apply hids
  rw [hleft.itemId, hright.itemId]
  simp only [WorkItem.coalescingKey, CoalescingKey.mk.injEq] at hkey
  obtain ⟨hlabel, htask, -, hsuite, hrepeat⟩ := hkey
  rw [hlabel, htask, hsuite, hrepeat, (Prod.mk.inj hcase).1]

theorem nodup_cases {bundle : List WorkItem}
    (hids : (bundle.map WorkItem.itemId).Nodup)
    (hitems : ∀ item ∈ bundle, item.WellFormed numEnvs)
    (hkey : ∀ item ∈ bundle, item.coalescingKey = key) :
    (bundle.flatMap WorkItem.cases).Nodup := by
  rw [nodup_flatMap]
  constructor
  · intro item hitem
    apply (hitems item hitem).seeds.map
    intro left right hcase
    exact (Prod.mk.inj hcase).2
  · have hpairs := pairwise_map.mp hids
    apply hpairs.imp_of_mem
    intro left right hleft hright hne
    exact disjoint_cases (hitems left hleft) (hitems right hright)
      ((hkey left hleft).trans (hkey right hright).symm) hne

theorem perm_coalescedGroups (items : List WorkItem)
    (hpositive : 0 < itemsPerEvaluator) :
    (coalescedGroups items itemsPerEvaluator).flatten.Perm items := by
  have hflatten : (coalescedGroups items itemsPerEvaluator).flatten =
      (groupInOrder WorkItem.coalescingKey items).flatMap Prod.snd := by
    unfold coalescedGroups
    rw [flatMap_def, flatten_flatten, map_map, flatMap_def]
    congr 1
    apply map_congr_left
    intro group _
    exact flatten_splitRows hpositive group.2
  rw [hflatten]
  exact perm_groupInOrder _ items

theorem key_of_mem_coalescedGroups (hpositive : 0 < itemsPerEvaluator)
    (hbundle : bundle ∈ coalescedGroups items itemsPerEvaluator) :
    ∃ key, ∀ item ∈ bundle, item.coalescingKey = key := by
  obtain ⟨group, hgroup, hrows⟩ := mem_flatMap.mp hbundle
  refine ⟨group.1, fun item hitem => ?_⟩
  apply key_of_mem_groupInOrder WorkItem.coalescingKey items group hgroup
  rw [← flatten_splitRows hpositive group.2]
  exact mem_flatten_of_mem hrows hitem

theorem coalescedItemBundles_eq_ok {items : List WorkItem}
    (hids : (items.map WorkItem.itemId).Nodup)
    (hitems : ∀ item ∈ items, item.WellFormed numEnvs)
    (hpositive : 0 < itemsPerEvaluator) :
    coalescedItemBundles items itemsPerEvaluator =
      .ok (coalescedGroups items itemsPerEvaluator) := by
  have hperm := perm_coalescedGroups items hpositive
  have hflatIds : ((coalescedGroups items itemsPerEvaluator).flatten.map
      WorkItem.itemId).Nodup :=
    (hperm.map WorkItem.itemId).nodup_iff.mpr hids
  have hnone : (coalescedGroups items itemsPerEvaluator).find? (fun bundle =>
      ¬ (bundle.flatMap WorkItem.cases).Nodup) = none := by
    apply find?_eq_none.mpr
    intro bundle hbundle
    obtain ⟨key, hkey⟩ := key_of_mem_coalescedGroups hpositive hbundle
    have hsub : bundle.Sublist
        (coalescedGroups items itemsPerEvaluator).flatten :=
      sublist_flatten_of_mem hbundle
    have hnodup := nodup_cases (hflatIds.sublist (hsub.map WorkItem.itemId))
      (fun item hitem => hitems item (hperm.mem_iff.mp (hsub.subset hitem)))
      hkey
    simpa using hnodup
  unfold coalescedItemBundles
  rw [if_neg (Nat.not_lt.mpr hpositive)]
  simp only [hnone]

end VerlVla
