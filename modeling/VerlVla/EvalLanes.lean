import VerlVla.EvalItems

/-!
# Lanes of an evaluation

The runner shares the items among lanes: item by item, several logical lanes on
one physical lane, bundle by bundle, or along a frozen plan.  The monitor counts
for each physical lane what it still has to run, from the manifest and the
completed items alone.
-/

namespace VerlVla

open List hiding cons nil partition

variable {manifest : RunManifest}

/-! ## The runner -/

def incomplete (complete : String → Bool) (items : List WorkItem) :
    List WorkItem :=
  items.filter fun item => !complete item.itemId

abbrev LaneRuns := Except EvalError (List (List WorkItem))

def commandLane (items : List WorkItem) (laneCount lane : ℕ)
    (complete : String → Bool) : LaneRuns := do
  require (lane < laneCount) (.invalidLane lane laneCount)
  .ok ((incomplete complete (laneShare (· % laneCount) lane items)).map
    fun item => [item])

def packedLogicalLanes (physicalLane physicalLaneCount evaluatorsPerGpu : ℕ) :
    Except EvalError (List ℕ) := do
  require (1 ≤ physicalLaneCount) .physicalLaneCount
  require (1 ≤ evaluatorsPerGpu) .evaluatorsPerGpu
  require (physicalLane < physicalLaneCount)
    (.invalidLane physicalLane physicalLaneCount)
  .ok (range' (physicalLane * evaluatorsPerGpu) evaluatorsPerGpu)

def commandPackedLane (items : List WorkItem)
    (physicalLaneCount evaluatorsPerGpu physicalLane : ℕ)
    (complete : String → Bool) : LaneRuns := do
  let logicalLanes ←
    packedLogicalLanes physicalLane physicalLaneCount evaluatorsPerGpu
  let runs ← logicalLanes.mapM fun lane =>
    commandLane items (physicalLaneCount * evaluatorsPerGpu) lane complete
  .ok runs.flatten

def runCoalescedBundle (numEnvs : ℕ) (complete : String → Bool)
    (bundle : List WorkItem) : LaneRuns :=
  match incomplete complete bundle with
  | [] => .ok []
  | [item] => .ok [[item]]
  | first :: second :: rest => do
    let missing := first :: second :: rest
    require (∀ item ∈ missing, item.coalescingKey = first.coalescingKey)
      .incompatibleItems
    require ((missing.flatMap WorkItem.policySeeds).length =
      numEnvs * missing.length) .vectorSize
    .ok [missing]

def runBundles (numEnvs laneCount lane : ℕ) (complete : String → Bool)
    (bundles : List (List WorkItem)) : LaneRuns := do
  require (lane < laneCount) (.invalidLane lane laneCount)
  let runs ← (laneShare (· % laneCount) lane bundles).mapM
    (runCoalescedBundle numEnvs complete)
  .ok runs.flatten

def commandCoalescedLane (manifest : RunManifest)
    (laneCount itemsPerEvaluator lane : ℕ) (complete : String → Bool) :
    LaneRuns := do
  let bundles ← coalescedItemBundles manifest.workItems itemsPerEvaluator
  runBundles manifest.spec.topology.numEnvs laneCount lane complete bundles

/-- The items a bundle of a plan names, none of them named before. -/
def recoveryBundle (items : List WorkItem) (seen : List String) :
    List String → Except EvalError (List WorkItem)
  | [] => .ok []
  | itemId :: rest => do
    require (itemId ∉ seen) (.duplicateRecoveryItem itemId)
    match items.find? fun item => item.itemId = itemId with
    | none => .error (.unknownRecoveryItem itemId)
    | some item =>
      let bundle ← recoveryBundle items (itemId :: seen) rest
      .ok (item :: bundle)

def recoveryBundles (items : List WorkItem) (seen : List String) :
    List (List String) → Except EvalError (List (List WorkItem))
  | [] => .ok []
  | itemIds :: rest => do
    require (itemIds ≠ []) .emptyBundle
    let bundle ← recoveryBundle items seen itemIds
    let bundles ← recoveryBundles items (itemIds ++ seen) rest
    .ok (bundle :: bundles)

def commandCoalescedPlanLane (manifest : RunManifest)
    (plan : List (List String)) (laneCount lane : ℕ)
    (complete : String → Bool) : LaneRuns := do
  require (plan ≠ []) .noBundles
  let bundles ← recoveryBundles manifest.workItems [] plan
  runBundles manifest.spec.topology.numEnvs laneCount lane complete bundles

def commandFreezeMissingPlan (manifest : RunManifest)
    (itemsPerEvaluator : ℕ) (complete : String → Bool) :
    Except EvalError (List (List String)) := do
  let bundles ← coalescedItemBundles
    (incomplete complete manifest.workItems) itemsPerEvaluator
  .ok (bundles.map fun bundle => bundle.map WorkItem.itemId)

/-! ## The monitor -/

/-- How the lanes of an evaluation run, as the monitor is told. -/
structure LaneMode where
  evaluatorsPerGpu : ℕ
  coalescedItemsPerEvaluator : ℕ
  coalescedPlan : Option (List (List String))
  deriving DecidableEq

/-- The checks of the monitor on its arguments. -/
structure LaneMode.Accepted (mode : LaneMode) : Prop where
  evaluators : 1 ≤ mode.evaluatorsPerGpu
  items : 1 ≤ mode.coalescedItemsPerEvaluator
  exclusive : ¬ (1 < mode.evaluatorsPerGpu ∧
    1 < mode.coalescedItemsPerEvaluator)
  plan : mode.coalescedPlan ≠ none →
    ¬ (1 < mode.evaluatorsPerGpu ∨ 1 < mode.coalescedItemsPerEvaluator)

def physicalLaneRuns (manifest : RunManifest) (mode : LaneMode)
    (laneCount lane : ℕ) (complete : String → Bool) : LaneRuns :=
  match mode.coalescedPlan with
  | some plan =>
    commandCoalescedPlanLane manifest plan laneCount lane complete
  | none =>
    if 1 < mode.coalescedItemsPerEvaluator then
      commandCoalescedLane manifest laneCount
        mode.coalescedItemsPerEvaluator lane complete
    else
      commandPackedLane manifest.workItems laneCount
        mode.evaluatorsPerGpu lane complete

def missingIn (complete : String → Bool) (itemIds : List String) : ℕ :=
  (itemIds.filter fun itemId => !complete itemId).length

def missingPhysicalLanes (manifest : RunManifest) (mode : LaneMode)
    (laneCount : ℕ) (complete : String → Bool) : ℕ → ℕ :=
  match mode.coalescedPlan with
  | some plan =>
    laneCounts (· % laneCount) (missingIn complete) plan
  | none =>
    if 1 < mode.coalescedItemsPerEvaluator then
      laneCounts (· % laneCount)
        (fun bundle => (incomplete complete bundle).length)
        (coalescedGroups manifest.workItems mode.coalescedItemsPerEvaluator)
    else
      laneCounts (fun index => index % (laneCount * mode.evaluatorsPerGpu) /
          mode.evaluatorsPerGpu)
        (fun item => (incomplete complete [item]).length)
        manifest.workItems

def LaneMode.items (mode : LaneMode) (manifest : RunManifest) :
    List WorkItem :=
  match mode.coalescedPlan with
  | some plan => manifest.workItems.filter fun item =>
    plan.any fun bundle => bundle.contains item.itemId
  | none => manifest.workItems

/-! ## Processes of a lane -/

structure Compatible (process : List WorkItem) : Prop where
  key : ∃ key, ∀ item ∈ process, item.coalescingKey = key
  cases : (process.flatMap WorkItem.cases).Nodup

structure Bundled (manifest : RunManifest)
    (bundles : List (List WorkItem)) : Prop where
  known : ∀ bundle ∈ bundles, ∀ item ∈ bundle, item ∈ manifest.workItems
  key : ∀ bundle ∈ bundles, ∃ key, ∀ item ∈ bundle, item.coalescingKey = key
  itemIds : (bundles.flatten.map WorkItem.itemId).Nodup

theorem incomplete_sublist (complete : String → Bool)
    (items : List WorkItem) : (incomplete complete items).Sublist items :=
  filter_sublist

theorem incomplete_flatten (complete : String → Bool)
    (bundles : List (List WorkItem)) :
    incomplete complete bundles.flatten =
      bundles.flatMap (incomplete complete) := by
  unfold incomplete
  rw [filter_flatten, flatMap_def]

theorem incomplete_flatMap {α : Type} (complete : String → Bool)
    (parts : List α) (itemsOf : α → List WorkItem) :
    incomplete complete (parts.flatMap itemsOf) =
      parts.flatMap fun part => incomplete complete (itemsOf part) := by
  rw [flatMap_def, incomplete_flatten, flatMap_map]

variable {items : List WorkItem} {bundles : List (List WorkItem)}
  {plan : List (List String)} {complete : String → Bool}

theorem length_seeds (hitems : ∀ item ∈ items, item.WellFormed numEnvs) :
    (items.flatMap WorkItem.policySeeds).length = numEnvs * items.length := by
  induction items with
  | nil => rfl
  | cons first rest ih =>
    have hfirst := (hitems first mem_cons_self).seedCount
    have hrest := ih fun item hitem =>
      hitems item (mem_cons_of_mem _ hitem)
    rw [flatMap_cons, length_append, hfirst, hrest,
      length_cons, Nat.mul_add, Nat.mul_one, Nat.add_comm]

theorem runCoalescedBundle_ok
    (hitems : ∀ item ∈ bundle, item.WellFormed numEnvs)
    (hkey : ∀ item ∈ bundle, item.coalescingKey = key)
    (hids : (bundle.map WorkItem.itemId).Nodup) (complete : String → Bool) :
    ∃ runs, runCoalescedBundle numEnvs complete bundle = .ok runs ∧
      runs.flatten = incomplete complete bundle ∧
      ∀ process ∈ runs, Compatible process := by
  have hsub := incomplete_sublist complete bundle
  have hcompatible : Compatible (incomplete complete bundle) := by
    constructor
    · exact ⟨key, fun item hitem => hkey item (hsub.subset hitem)⟩
    · exact nodup_cases (hids.sublist (hsub.map _))
        (fun item hitem => hitems item (hsub.subset hitem))
        (fun item hitem => hkey item (hsub.subset hitem))
  have hlength := length_seeds fun item hitem =>
    hitems item (hsub.subset hitem)
  unfold runCoalescedBundle
  cases hmissing : incomplete complete bundle with
  | nil => exact ⟨[], rfl, rfl, fun _ hprocess => absurd hprocess
      not_mem_nil⟩
  | cons first rest =>
    rw [hmissing] at hcompatible hlength hsub
    have honly : ∀ process ∈ [first :: rest], Compatible process := by
      intro process hprocess
      rw [mem_singleton.mp hprocess]
      exact hcompatible
    cases rest with
    | nil => exact ⟨[[first]], rfl, rfl, honly⟩
    | cons second rest =>
      refine ⟨[first :: second :: rest], ?_, flatten_singleton, honly⟩
      have hsame : ∀ item ∈ first :: second :: rest,
          item.coalescingKey = first.coalescingKey := fun item hitem =>
        (hkey item (hsub.subset hitem)).trans
          (hkey first (hsub.subset mem_cons_self)).symm
      simp only [require_of hsame, require_of hlength]
      rfl

theorem laneShare_sublist {α : Type} (laneOf : ℕ → ℕ) (lane : ℕ)
    (work : List α) : (laneShare laneOf lane work).Sublist work := by
  have hmapped := (filter_sublist (p := fun entry : α × ℕ =>
    decide (laneOf entry.2 = lane)) (l := work.zipIdx)).map Prod.fst
  rw [zipIdx_map_fst] at hmapped
  exact hmapped

theorem runBundles_ok (hloaded : LoadedManifest manifest)
    (hbundled : Bundled manifest bundles) (hlane : lane < laneCount)
    (complete : String → Bool) :
    ∃ runs, runBundles manifest.spec.topology.numEnvs laneCount lane complete
        bundles = .ok runs ∧
      runs.flatten = (laneShare (· % laneCount) lane bundles).flatMap
        (incomplete complete) ∧
      ∀ process ∈ runs, Compatible process := by
  have hshare := laneShare_sublist (· % laneCount) lane bundles
  have hall : ∀ share : List (List WorkItem), share.Sublist bundles →
      ∃ runs, share.mapM (runCoalescedBundle
          manifest.spec.topology.numEnvs complete) = .ok runs ∧
        runs.flatten.flatten = share.flatMap (incomplete complete) ∧
        ∀ process ∈ runs.flatten, Compatible process := by
    intro share hsub
    induction share with
    | nil => exact ⟨[], rfl, rfl, fun _ hprocess => absurd hprocess
        not_mem_nil⟩
    | cons bundle rest ih =>
      have hmem : bundle ∈ bundles := hsub.subset mem_cons_self
      obtain ⟨key, hkey⟩ := hbundled.key bundle hmem
      have hids : (bundle.map WorkItem.itemId).Nodup :=
        hbundled.itemIds.sublist ((sublist_flatten_of_mem hmem).map _)
      obtain ⟨runs, hruns, hflat, hcompatible⟩ := runCoalescedBundle_ok
        (fun item hitem => hloaded.items item
          (hbundled.known bundle hmem item hitem)) hkey hids complete
      obtain ⟨others, hothers, hrest, hlater⟩ :=
        ih ((sublist_cons_self bundle rest).trans hsub)
      refine ⟨runs :: others, ?_, ?_, ?_⟩
      · rw [mapM_cons, hruns]
        rw [hothers]
        rfl
      · rw [flatten_cons, flatten_append, hflat, hrest, flatMap_cons]
      · intro process hprocess
        cases mem_append.mp hprocess with
        | inl hfirst => exact hcompatible process hfirst
        | inr hsecond => exact hlater process hsecond
  obtain ⟨runs, hruns, hflat, hcompatible⟩ := hall _ hshare
  refine ⟨runs.flatten, ?_, hflat, hcompatible⟩
  unfold runBundles
  rw [require_of hlane, hruns]
  rfl

/-! ## Bundles of a manifest and of a plan -/

theorem bundled_coalescedGroups (hloaded : LoadedManifest manifest)
    (hpositive : 0 < itemsPerEvaluator) :
    Bundled manifest
      (coalescedGroups manifest.workItems itemsPerEvaluator) := by
  have hperm := perm_coalescedGroups manifest.workItems hpositive
  constructor
  · intro bundle hbundle item hitem
    exact hperm.mem_iff.mp (mem_flatten_of_mem hbundle hitem)
  · exact fun bundle hbundle => key_of_mem_coalescedGroups hpositive hbundle
  · exact (hperm.map WorkItem.itemId).nodup_iff.mpr hloaded.itemIds

structure NamedBy (items : List WorkItem) (seen itemIds : List String)
    (bundle : List WorkItem) : Prop where
  names : bundle.map WorkItem.itemId = itemIds
  known : ∀ item ∈ bundle, item ∈ items
  distinct : itemIds.Nodup
  fresh : ∀ itemId ∈ itemIds, itemId ∉ seen

theorem namedBy_of_recoveryBundle
    (hbundle : recoveryBundle items seen itemIds = .ok bundle) :
    NamedBy items seen itemIds bundle := by
  induction itemIds generalizing seen bundle with
  | nil =>
    cases hbundle
    exact ⟨rfl, fun _ hitem => absurd hitem not_mem_nil,
      nodup_nil, fun _ hid => absurd hid not_mem_nil⟩
  | cons itemId rest ih =>
    obtain ⟨hseen, hbundle⟩ := require_bind_eq_ok.mp hbundle
    split at hbundle
    · cases hbundle
    · rename_i item hfind
      obtain ⟨others, hothers, hbundle⟩ := bind_eq_ok.mp hbundle
      cases hbundle
      have hrest := ih hothers
      have hid : item.itemId = itemId := by simpa using find?_some hfind
      constructor
      · rw [map_cons, hid, hrest.names]
      · intro other hother
        cases mem_cons.mp hother with
        | inl hfirst =>
          rw [hfirst]
          exact mem_of_find?_eq_some hfind
        | inr hlater => exact hrest.known other hlater
      · exact nodup_cons.mpr
          ⟨fun hmem => hrest.fresh itemId hmem mem_cons_self, hrest.distinct⟩
      · intro other hother
        cases mem_cons.mp hother with
        | inl hfirst => exact hfirst ▸ hseen
        | inr hlater =>
          exact fun hmem => hrest.fresh other hlater (mem_cons_of_mem _ hmem)

theorem namedBy_of_recoveryBundles
    (hbundles : recoveryBundles items seen plan = .ok bundles) :
    bundles.map (fun bundle => bundle.map WorkItem.itemId) = plan ∧
      (∀ bundle ∈ bundles, ∀ item ∈ bundle, item ∈ items) ∧
      plan.flatten.Nodup ∧ ∀ itemId ∈ plan.flatten, itemId ∉ seen := by
  induction plan generalizing seen bundles with
  | nil =>
    cases hbundles
    exact ⟨rfl, fun _ hbundle => absurd hbundle not_mem_nil,
      nodup_nil, fun _ hid => absurd hid not_mem_nil⟩
  | cons itemIds rest ih =>
    obtain ⟨-, hbundles⟩ := require_bind_eq_ok.mp hbundles
    obtain ⟨bundle, hbundle, hbundles⟩ := bind_eq_ok.mp hbundles
    obtain ⟨others, hothers, hbundles⟩ := bind_eq_ok.mp hbundles
    cases hbundles
    have hfirst := namedBy_of_recoveryBundle hbundle
    obtain ⟨hnames, hknown, hdistinct, hfresh⟩ := ih hothers
    refine ⟨?_, ?_, ?_, ?_⟩
    · rw [map_cons, hfirst.names, hnames]
    · intro other hother
      cases mem_cons.mp hother with
      | inl hsame => exact hsame ▸ hfirst.known
      | inr hlater => exact hknown other hlater
    · rw [flatten_cons, nodup_append']
      refine ⟨hfirst.distinct, hdistinct, ?_⟩
      intro itemId hleft hright
      exact hfresh itemId hright (mem_append_left _ hleft)
    · intro itemId hid
      cases mem_append.mp hid with
      | inl hleft => exact hfirst.fresh itemId hleft
      | inr hright =>
        exact fun hmem => hfresh itemId hright (mem_append_right _ hmem)

def PlanAccepted (manifest : RunManifest) (plan : List (List String)) : Prop :=
  plan ≠ [] ∧ ∃ bundles,
    recoveryBundles manifest.workItems [] plan = .ok bundles ∧
    ∀ bundle ∈ bundles, ∃ key, ∀ item ∈ bundle, item.coalescingKey = key

theorem bundled_of_recoveryBundles
    (hbundles : recoveryBundles manifest.workItems [] plan = .ok bundles)
    (hkey : ∀ bundle ∈ bundles, ∃ key, ∀ item ∈ bundle,
      item.coalescingKey = key) : Bundled manifest bundles := by
  obtain ⟨hnames, hknown, hdistinct, -⟩ := namedBy_of_recoveryBundles hbundles
  refine ⟨hknown, hkey, ?_⟩
  have hflat : bundles.flatten.map WorkItem.itemId = plan.flatten := by
    rw [← hnames, map_flatten]
  rw [hflat]
  exact hdistinct

section

variable (hids : (items.map WorkItem.itemId).Nodup)

include hids

theorem find_itemId (hitem : item ∈ items) :
    items.find? (fun other => other.itemId = item.itemId) = some item := by
  induction items with
  | nil => cases hitem
  | cons first rest ih =>
    obtain ⟨hfirst, hrest⟩ := nodup_cons.mp hids
    cases mem_cons.mp hitem with
    | inl hsame =>
      subst hsame
      exact find?_cons_of_pos (decide_eq_true rfl)
    | inr hlater =>
      have hne : ¬ first.itemId = item.itemId := by
        intro heq
        exact hfirst (heq ▸ mem_map_of_mem hlater)
      rw [find?_cons_of_neg (by simpa using hne)]
      exact ih hrest hlater

theorem recoveryBundle_names (hknown : ∀ item ∈ bundle, item ∈ items)
    (hdistinct : (bundle.map WorkItem.itemId).Nodup)
    (hfresh : ∀ item ∈ bundle, item.itemId ∉ seen) :
    recoveryBundle items seen (bundle.map WorkItem.itemId) = .ok bundle := by
  induction bundle generalizing seen with
  | nil => rfl
  | cons item rest ih =>
    obtain ⟨hitem, hrest⟩ := nodup_cons.mp hdistinct
    have hlater : recoveryBundle items (item.itemId :: seen)
        (rest.map WorkItem.itemId) = .ok rest := ih
      (fun other hother => hknown other (mem_cons_of_mem _ hother))
      hrest (by
        intro other hother hmem
        cases mem_cons.mp hmem with
        | inl hsame => exact hitem (hsame ▸ mem_map_of_mem hother)
        | inr hseen =>
          exact hfresh other (mem_cons_of_mem _ hother) hseen)
    rw [map_cons, recoveryBundle, require_of (hfresh item mem_cons_self),
      find_itemId hids (hknown item mem_cons_self)]
    simp only [bind, Except.bind, hlater]

theorem recoveryBundles_names
    (hknown : ∀ bundle ∈ bundles, ∀ item ∈ bundle, item ∈ items)
    (hnonempty : ∀ bundle ∈ bundles, bundle ≠ [])
    (hdistinct : (bundles.flatten.map WorkItem.itemId).Nodup)
    (hfresh : ∀ item ∈ bundles.flatten, item.itemId ∉ seen) :
    recoveryBundles items seen
        (bundles.map fun bundle => bundle.map WorkItem.itemId) =
      .ok bundles := by
  induction bundles generalizing seen with
  | nil => rfl
  | cons bundle rest ih =>
    rw [flatten_cons, map_append, nodup_append'] at hdistinct
    obtain ⟨hbundle, hrest, hdisjoint⟩ := hdistinct
    have hfirst : recoveryBundle items seen
        (bundle.map WorkItem.itemId) = .ok bundle := recoveryBundle_names hids
      (hknown bundle mem_cons_self) hbundle
      (fun item hitem => hfresh item (mem_append_left _ hitem))
    have hlater : recoveryBundles items
        (bundle.map WorkItem.itemId ++ seen)
        (rest.map fun bundle => bundle.map WorkItem.itemId) = .ok rest := ih
      (fun other hother => hknown other (mem_cons_of_mem _ hother))
      (fun other hother => hnonempty other (mem_cons_of_mem _ hother))
      hrest (by
        intro item hitem hmem
        cases mem_append.mp hmem with
        | inl hnames => exact hdisjoint hnames (mem_map_of_mem hitem)
        | inr hseen =>
          exact hfresh item (mem_append_right _ hitem) hseen)
    have hnames : bundle.map WorkItem.itemId ≠ [] := by
      intro hnil
      exact hnonempty bundle mem_cons_self (map_eq_nil_iff.mp hnil)
    rw [map_cons, recoveryBundles, require_of hnames, hfirst]
    simp only [bind, Except.bind, hlater]

end

theorem frozen_plan_accepted (hloaded : LoadedManifest manifest)
    (hplan : commandFreezeMissingPlan manifest itemsPerEvaluator complete =
      .ok plan) (hnonempty : plan ≠ []) : PlanAccepted manifest plan := by
  obtain ⟨bundles, hbundles, hplan⟩ := bind_eq_ok.mp hplan
  cases hplan
  have hsub := incomplete_sublist complete manifest.workItems
  have hids : ((incomplete complete manifest.workItems).map
      WorkItem.itemId).Nodup := hloaded.itemIds.sublist (hsub.map _)
  have hpositive : 0 < itemsPerEvaluator := by
    by_contra hzero
    unfold coalescedItemBundles at hbundles
    rw [if_pos (by omega)] at hbundles
    cases hbundles
  rw [coalescedItemBundles_eq_ok hids (fun item hitem =>
    hloaded.items item (hsub.subset hitem)) hpositive] at hbundles
  cases hbundles
  have hperm := perm_coalescedGroups (incomplete complete manifest.workItems)
    hpositive
  refine ⟨hnonempty, _, recoveryBundles_names hloaded.itemIds ?_ ?_ ?_ ?_,
    fun bundle hbundle => key_of_mem_coalescedGroups hpositive hbundle⟩
  · intro bundle hbundle item hitem
    exact hsub.subset (hperm.mem_iff.mp (mem_flatten_of_mem hbundle hitem))
  · intro bundle hbundle
    obtain ⟨group, -, hrows⟩ := mem_flatMap.mp hbundle
    exact splitRows_ne_nil hpositive hrows
  · exact (hperm.map WorkItem.itemId).nodup_iff.mpr hids
  · exact fun item _ => not_mem_nil

/-! ## Packed lanes -/

theorem commandLane_eq_ok (items : List WorkItem) (hlane : lane < laneCount)
    (complete : String → Bool) :
    commandLane items laneCount lane complete = .ok ((incomplete complete
        (laneShare (· % laneCount) lane items)).map fun item => [item]) := by
  unfold commandLane
  rw [require_of hlane]
  rfl

theorem mem_logical_iff (hevaluators : 0 < evaluators) :
    logical ∈ range' (lane * evaluators) evaluators ↔
      logical / evaluators = lane := by
  rw [mem_range'_1, Nat.div_eq_iff hevaluators]
  omega

theorem logical_lt (hlane : lane < laneCount)
    (hlogical : logical ∈ range' (lane * evaluators) evaluators) :
    logical < laneCount * evaluators := by
  have hbound : (lane + 1) * evaluators ≤ laneCount * evaluators :=
    Nat.mul_le_mul_right evaluators hlane
  rw [Nat.add_mul, Nat.one_mul] at hbound
  have hmem := mem_range'_1.mp hlogical
  omega

def packedLaneOf (laneCount evaluators index : ℕ) : ℕ :=
  index % (laneCount * evaluators) / evaluators

theorem packedLaneOf_lt (hlanes : 0 < laneCount)
    (hevaluators : 0 < evaluators) (index : ℕ) :
    packedLaneOf laneCount evaluators index < laneCount := by
  have hrest := Nat.mod_lt index (Nat.mul_pos hlanes hevaluators)
  apply Nat.div_lt_of_lt_mul
  rwa [Nat.mul_comm evaluators]

theorem perm_logicalShares (hevaluators : 0 < evaluators)
    (items : List WorkItem) :
    ((range' (lane * evaluators) evaluators).flatMap fun logical =>
        laneShare (· % (laneCount * evaluators)) logical items).Perm
      (laneShare (packedLaneOf laneCount evaluators) lane items) := by
  refine (perm_flatMap_laneShare _ nodup_range' items).trans (Perm.of_eq ?_)
  unfold laneShare packedLaneOf
  congr 1
  apply filter_congr
  intro entry _
  simp only [mem_logical_iff hevaluators]

theorem commandPackedLane_ok (hevaluators : 1 ≤ evaluators)
    (hlane : lane < laneCount) (items : List WorkItem)
    (complete : String → Bool) :
    ∃ runs, commandPackedLane items laneCount evaluators lane complete =
        .ok runs ∧
      runs.flatten.Perm (incomplete complete
        (laneShare (packedLaneOf laneCount evaluators) lane items)) ∧
      ∀ process ∈ runs, ∃ item ∈ items, process = [item] := by
  have hlogical : packedLogicalLanes lane laneCount evaluators =
      .ok (range' (lane * evaluators) evaluators) := by
    unfold packedLogicalLanes
    have hlanes : 1 ≤ laneCount := by omega
    rw [require_of hlanes, require_of hevaluators, require_of hlane]
    rfl
  have hruns : (range' (lane * evaluators) evaluators).mapM
      (fun logical => commandLane items (laneCount * evaluators) logical
        complete) = .ok ((range' (lane * evaluators) evaluators).map
      fun logical => (incomplete complete
        (laneShare (· % (laneCount * evaluators)) logical items)).map
          fun item => [item]) :=
    mapM_eq_ok_map fun logical hmem =>
      commandLane_eq_ok items (logical_lt hlane hmem) complete
  refine ⟨((range' (lane * evaluators) evaluators).map
      fun logical => (incomplete complete
        (laneShare (· % (laneCount * evaluators)) logical items)).map
          fun item => [item]).flatten, ?_, ?_, ?_⟩
  · unfold commandPackedLane
    rw [hlogical]
    simp only [bind, Except.bind, hruns]
  · have hflat : (((range' (lane * evaluators) evaluators).map
        fun logical => (incomplete complete
          (laneShare (· % (laneCount * evaluators)) logical items)).map
            fun item => [item]).flatten).flatten =
        incomplete complete
          ((range' (lane * evaluators) evaluators).flatMap fun logical =>
            laneShare (· % (laneCount * evaluators)) logical items) := by
      rw [incomplete_flatMap, flatten_flatten, map_map, flatMap_def]
      congr 1
      apply map_congr_left
      intro logical _
      exact flatMap_singleton' _
    rw [hflat]
    exact (perm_logicalShares hevaluators items).filter _
  · intro process hprocess
    obtain ⟨part, hpart, hprocess⟩ := mem_flatten.mp hprocess
    obtain ⟨logical, -, rfl⟩ := mem_map.mp hpart
    obtain ⟨item, hitem, rfl⟩ := mem_map.mp hprocess
    have hshare := (incomplete_sublist complete _).subset hitem
    exact ⟨item, (laneShare_sublist _ _ _).subset hshare, rfl⟩

/-! ## Runner and monitor -/

def laneItems (manifest : RunManifest) (mode : LaneMode)
    (laneCount lane : ℕ) (complete : String → Bool) : List WorkItem :=
  match physicalLaneRuns manifest mode laneCount lane complete with
  | .ok runs => runs.flatten
  | .error _ => []

/-- The lanes run what is not complete, once, in compatible processes, and the
monitor counts it. -/
structure LanesAgree (manifest : RunManifest) (mode : LaneMode)
    (laneCount : ℕ) (complete : String → Bool) : Prop where
  runs : ∀ lane < laneCount, ∃ runs,
    physicalLaneRuns manifest mode laneCount lane complete = .ok runs ∧
    ∀ process ∈ runs, Compatible process
  partition : ((range laneCount).flatMap fun lane =>
      laneItems manifest mode laneCount lane complete).Perm
    (incomplete complete (mode.items manifest))
  counts : ∀ lane < laneCount,
    missingPhysicalLanes manifest mode laneCount complete lane =
      (laneItems manifest mode laneCount lane complete).length

theorem LanesAgree.of_shares {α : Type} (laneOf : ℕ → ℕ) (work : List α)
    (held : α → List WorkItem)
    (hlanes : ∀ index, laneOf index < laneCount)
    (hruns : ∀ lane < laneCount, ∃ runs,
      physicalLaneRuns manifest mode laneCount lane complete = .ok runs ∧
      runs.flatten.Perm ((laneShare laneOf lane work).flatMap
        fun piece => incomplete complete (held piece)) ∧
      ∀ process ∈ runs, Compatible process)
    (hitems : (work.flatMap held).Perm (mode.items manifest))
    (hcounts : missingPhysicalLanes manifest mode laneCount complete =
      laneCounts laneOf (fun piece => (incomplete complete
        (held piece)).length) work) :
    LanesAgree manifest mode laneCount complete := by
  have hshare : ∀ lane < laneCount,
      (laneItems manifest mode laneCount lane complete).Perm
        ((laneShare laneOf lane work).flatMap fun piece =>
          incomplete complete (held piece)) := by
    intro lane hlane
    obtain ⟨runs, hrun, hperm, -⟩ := hruns lane hlane
    unfold laneItems
    rw [hrun]
    exact hperm
  constructor
  · intro lane hlane
    obtain ⟨runs, hrun, -, hcompatible⟩ := hruns lane hlane
    exact ⟨runs, hrun, hcompatible⟩
  · have hparts : ((range laneCount).flatMap fun lane =>
        laneItems manifest mode laneCount lane complete).Perm
          ((range laneCount).flatMap fun lane =>
            (laneShare laneOf lane work).flatMap fun piece =>
              incomplete complete (held piece)) :=
      Perm.flatMap_left _ fun lane hlane =>
        hshare lane (mem_range.mp hlane)
    refine hparts.trans ?_
    have hall := (perm_flatMap_laneShare_range hlanes work).flatMap_right
      fun piece => incomplete complete (held piece)
    rw [flatMap_assoc] at hall
    refine hall.trans ?_
    rw [← incomplete_flatMap]
    exact hitems.filter _
  · intro lane hlane
    rw [(hshare lane hlane).length_eq, length_flatMap, hcounts, laneCounts_eq]

section

variable (hloaded : LoadedManifest manifest)

include hloaded

theorem compatible_singleton (hitem : item ∈ manifest.workItems) :
    Compatible [item] := by
  constructor
  · exact ⟨item.coalescingKey, fun other hother =>
      congrArg WorkItem.coalescingKey (mem_singleton.mp hother)⟩
  · rw [flatMap_singleton]
    exact (hloaded.items item hitem).seeds.map fun _ _ hcase =>
      (Prod.mk.inj hcase).2

theorem lanesAgree_packed (hplan : mode.coalescedPlan = none)
    (hsingle : ¬ 1 < mode.coalescedItemsPerEvaluator)
    (hevaluators : 1 ≤ mode.evaluatorsPerGpu)
    (hlanes : 1 ≤ laneCount) (complete : String → Bool) :
    LanesAgree manifest mode laneCount complete := by
  apply LanesAgree.of_shares (packedLaneOf laneCount mode.evaluatorsPerGpu)
    manifest.workItems (fun item => [item])
    (packedLaneOf_lt hlanes hevaluators)
  · intro lane hlane
    obtain ⟨runs, hruns, hperm, hprocesses⟩ := commandPackedLane_ok
      hevaluators hlane manifest.workItems complete
    refine ⟨runs, ?_, ?_, ?_⟩
    · unfold physicalLaneRuns
      simp only [hplan, if_neg hsingle]
      exact hruns
    · rw [← incomplete_flatMap, flatMap_singleton']
      exact hperm
    · intro process hprocess
      obtain ⟨item, hitem, rfl⟩ := hprocesses process hprocess
      exact compatible_singleton hloaded hitem
  · unfold LaneMode.items
    rw [hplan, flatMap_singleton']
  · unfold missingPhysicalLanes
    simp only [hplan, if_neg hsingle]
    rfl

theorem lanesAgree_bundles (hbundled : Bundled manifest bundles)
    (hlanes : 1 ≤ laneCount)
    (hruns : ∀ lane, physicalLaneRuns manifest mode laneCount lane complete =
      runBundles manifest.spec.topology.numEnvs laneCount lane complete
        bundles)
    (hitems : bundles.flatten.Perm (mode.items manifest))
    (hcounts : missingPhysicalLanes manifest mode laneCount complete =
      laneCounts (· % laneCount) (fun bundle => (incomplete complete
        bundle).length) bundles) :
    LanesAgree manifest mode laneCount complete := by
  apply LanesAgree.of_shares (· % laneCount) bundles id
    (fun index => Nat.mod_lt index hlanes)
  · intro lane hlane
    obtain ⟨runs, hrun, hflat, hcompatible⟩ :=
      runBundles_ok hloaded hbundled hlane complete
    exact ⟨runs, (hruns lane).trans hrun, Perm.of_eq hflat, hcompatible⟩
  · rw [flatMap_id]
    exact hitems
  · exact hcounts

theorem lanesAgree_coalesced (hplan : mode.coalescedPlan = none)
    (hmany : 1 < mode.coalescedItemsPerEvaluator)
    (hlanes : 1 ≤ laneCount) (complete : String → Bool) :
    LanesAgree manifest mode laneCount complete := by
  have hpositive : 0 < mode.coalescedItemsPerEvaluator := by omega
  apply lanesAgree_bundles hloaded (bundled_coalescedGroups hloaded hpositive)
    hlanes
  · intro lane
    unfold physicalLaneRuns commandCoalescedLane
    simp only [hplan, if_pos hmany,
      coalescedItemBundles_eq_ok hloaded.itemIds hloaded.items hpositive]
    rfl
  · unfold LaneMode.items
    rw [hplan]
    exact perm_coalescedGroups manifest.workItems hpositive
  · unfold missingPhysicalLanes
    simp only [hplan, if_pos hmany]

theorem perm_planItems (hbundled : Bundled manifest bundles)
    (hnames : bundles.map (fun bundle => bundle.map WorkItem.itemId) = plan) :
    bundles.flatten.Perm (manifest.workItems.filter fun item =>
      plan.any fun bundle => bundle.contains item.itemId) := by
  apply (perm_ext_iff_of_nodup hbundled.itemIds.of_map
    (hloaded.itemIds.of_map.filter _)).mpr
  intro item
  rw [mem_filter, any_eq_true]
  constructor
  · intro hitem
    obtain ⟨bundle, hbundle, hmem⟩ := mem_flatten.mp hitem
    refine ⟨hbundled.known bundle hbundle item hmem,
      bundle.map WorkItem.itemId, ?_, ?_⟩
    · rw [← hnames]
      exact mem_map_of_mem hbundle
    · exact contains_iff_mem.mpr (mem_map_of_mem hmem)
  · rintro ⟨hitem, itemIds, hplan, hnamed⟩
    rw [← hnames] at hplan
    obtain ⟨bundle, hbundle, rfl⟩ := mem_map.mp hplan
    obtain ⟨other, hother, hid⟩ := mem_map.mp (contains_iff_mem.mp hnamed)
    have hsame : other = item := inj_on_of_nodup_map hloaded.itemIds
      (hbundled.known bundle hbundle other hother) hitem hid
    rw [← hsame]
    exact mem_flatten_of_mem hbundle hother

end

theorem missingIn_map (complete : String → Bool) (bundle : List WorkItem) :
    missingIn complete (bundle.map WorkItem.itemId) =
      (incomplete complete bundle).length := by
  unfold missingIn incomplete
  rw [filter_map, length_map]
  rfl

theorem lanesAgree_plan (hloaded : LoadedManifest manifest)
    (hplan : mode.coalescedPlan = some plan)
    (haccepted : PlanAccepted manifest plan)
    (hlanes : 1 ≤ laneCount) (complete : String → Bool) :
    LanesAgree manifest mode laneCount complete := by
  obtain ⟨hnonempty, bundles, hbundles, hkey⟩ := haccepted
  have hbundled := bundled_of_recoveryBundles hbundles hkey
  have hnames := (namedBy_of_recoveryBundles hbundles).1
  apply lanesAgree_bundles hloaded hbundled hlanes
  · intro lane
    unfold physicalLaneRuns commandCoalescedPlanLane
    simp only [hplan, require_of hnonempty, hbundles]
    rfl
  · unfold LaneMode.items
    rw [hplan]
    exact perm_planItems hloaded hbundled hnames
  · funext lane
    unfold missingPhysicalLanes
    simp only [hplan]
    rw [laneCounts_eq, laneCounts_eq, ← hnames, laneShare_map, map_map]
    congr 1
    apply map_congr_left
    intro bundle _
    exact missingIn_map complete bundle

theorem commandPackedLane_one (items : List WorkItem)
    (hlanes : 1 ≤ laneCount) (lane : ℕ) (complete : String → Bool) :
    commandPackedLane items laneCount 1 lane complete =
      commandLane items laneCount lane complete := by
  unfold commandPackedLane packedLogicalLanes
  rw [require_of hlanes, require_of le_rfl]
  by_cases hlane : lane < laneCount
  · rw [require_of hlane, commandLane_eq_ok items hlane]
    simp only [bind, Except.bind, Nat.mul_one, range'_one,
      mapM_cons, mapM_nil, commandLane_eq_ok items hlane]
    simp [pure, Except.pure]
  · unfold commandLane
    simp only [require, if_neg hlane]
    rfl

theorem nodup_modeItems (hloaded : LoadedManifest manifest)
    (mode : LaneMode) : (mode.items manifest).Nodup := by
  have hnodup := hloaded.itemIds.of_map
  unfold LaneMode.items
  split
  · exact hnodup.filter _
  · exact hnodup

theorem LanesAgree.existsUnique_lane
    (hagree : LanesAgree manifest mode laneCount complete)
    (hnodup : (mode.items manifest).Nodup) (hitem : item ∈ mode.items manifest)
    (hincomplete : complete item.itemId = false) :
    ∃! lane, lane < laneCount ∧
      item ∈ laneItems manifest mode laneCount lane complete := by
  have hmissing : item ∈ incomplete complete (mode.items manifest) :=
    mem_filter.mpr ⟨hitem, by rw [hincomplete]; rfl⟩
  obtain ⟨lane, hlane, hruns⟩ :=
    mem_flatMap.mp (hagree.partition.mem_iff.mpr hmissing)
  have hflat := hagree.partition.nodup_iff.mpr
    (hnodup.sublist (incomplete_sublist _ _))
  have hapart := (nodup_flatMap.mp hflat).2
  refine ⟨lane, ⟨mem_range.mp hlane, hruns⟩, ?_⟩
  rintro other ⟨hother, hothers⟩
  by_contra hne
  have hsymm : Std.Symm (Function.onFun List.Disjoint fun lane =>
      laneItems manifest mode laneCount lane complete) :=
    ⟨fun _ _ hdisjoint _ hright hleft => hdisjoint hleft hright⟩
  exact hapart.forall (mem_range.mpr hother) hlane hne hothers hruns

/-- In every mode each item is run by one lane, in compatible company, and the
monitor counts what each lane has left to run. -/
theorem lanes_share_evaluation {loaded : RunManifest} {mode : LaneMode}
    {laneCount : ℕ} (hload : loadRunManifest manifest = .ok loaded)
    (hmode : mode.Accepted)
    (hplan : ∀ plan, mode.coalescedPlan = some plan →
      PlanAccepted manifest plan) (hlanes : 1 ≤ laneCount) :
    (∀ complete, LanesAgree manifest mode laneCount complete) ∧
      (∀ item ∈ mode.items manifest, ∃! lane, lane < laneCount ∧
        item ∈ laneItems manifest mode laneCount lane fun _ => false) ∧
      (∀ complete, ∀ item ∈ mode.items manifest,
        complete item.itemId = true ∨ ∃ lane < laneCount,
          0 < missingPhysicalLanes manifest mode laneCount complete lane ∧
          item ∈ laneItems manifest mode laneCount lane complete) ∧
      (mode.evaluatorsPerGpu = 1 → mode.coalescedItemsPerEvaluator = 1 →
        mode.coalescedPlan = none → ∀ lane complete,
        physicalLaneRuns manifest mode laneCount lane complete =
          commandLane manifest.workItems laneCount lane complete) ∧
      (∀ itemsPerEvaluator complete plan,
        commandFreezeMissingPlan manifest itemsPerEvaluator complete =
          .ok plan → plan ≠ [] → PlanAccepted manifest plan) := by
  have hloaded := (loadedManifest hload).2
  have hagree : ∀ complete, LanesAgree manifest mode laneCount complete := by
    intro complete
    cases hcoalesced : mode.coalescedPlan with
    | some plan =>
        exact lanesAgree_plan hloaded hcoalesced (hplan plan hcoalesced)
          hlanes complete
    | none =>
        by_cases hmany : 1 < mode.coalescedItemsPerEvaluator
        · exact lanesAgree_coalesced hloaded hcoalesced hmany hlanes complete
        · exact lanesAgree_packed hloaded hcoalesced hmany hmode.evaluators
            hlanes complete
  have hnodup := nodup_modeItems hloaded mode
  refine ⟨hagree, ?_, ?_, ?_, ?_⟩
  · intro item hitem
    exact (hagree _).existsUnique_lane hnodup hitem rfl
  · intro complete item hitem
    cases hcomplete : complete item.itemId with
    | true => exact Or.inl rfl
    | false =>
        obtain ⟨lane, ⟨hlane, hruns⟩, -⟩ :=
          (hagree complete).existsUnique_lane hnodup hitem hcomplete
        refine Or.inr ⟨lane, hlane, ?_, hruns⟩
        rw [(hagree complete).counts lane hlane]
        exact length_pos_of_mem hruns
  · intro hevaluators hitems hnone lane complete
    unfold physicalLaneRuns
    simp only [hnone, hitems, hevaluators, lt_irrefl, if_false]
    exact commandPackedLane_one manifest.workItems hlanes lane complete
  · intro itemsPerEvaluator complete plan hfreeze hnonempty
    exact frozen_plan_accepted hloaded hfreeze hnonempty

def twoLayouts : EvalSpec where
  policies := [⟨"base", none, ""⟩]
  targets := [⟨"stack", 0, 0, 1, [5]⟩, ⟨"stack", 0, 0, 2, [5]⟩]
  repeats := 2
  topology := ⟨1, 1, 4, "terminal"⟩
  attemptsPerItem := 3

def twoLayoutsManifest : RunManifest := ⟨twoLayouts, expandedItems twoLayouts⟩

/-- Two items in one process, on two lanes. -/
def coalescedPairs : LaneMode := ⟨1, 2, none⟩

theorem lanes_share_two_layouts :
    loadRunManifest twoLayoutsManifest = .ok twoLayoutsManifest ∧
      coalescedPairs.Accepted ∧
      ∀ complete, LanesAgree twoLayoutsManifest coalescedPairs 2 complete := by
  have hload : loadRunManifest twoLayoutsManifest =
      .ok twoLayoutsManifest := by rfl
  have haccepted : coalescedPairs.Accepted :=
    ⟨by decide, by decide, by decide, fun hplan => absurd rfl hplan⟩
  exact ⟨hload, haccepted, (lanes_share_evaluation hload haccepted
    (fun _ hplan => absurd hplan (Option.some_ne_none _).symm)
    (Nat.le_succ 1)).1⟩

end VerlVla
