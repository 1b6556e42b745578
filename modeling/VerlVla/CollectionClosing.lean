import VerlVla.CollectionRounds

/-!
# Closing and loading a window

The closing rule of each mode, what a window that closed ready has selected,
and the loading of the selected groups by a process with the same
specification.
-/

namespace VerlVla
namespace CollectionStore

open Transition

variable {ρ : Type}

/-! ## The closing modes -/

inductive CloseMode
  | immediate
  | drainBudget
  | roundBalanced
  deriving DecidableEq

def WindowFields.closeMode (fields : WindowFields) : CloseMode :=
  if fields.drainCandidateBudget then .drainBudget
  else if fields.completeRoundAfterTarget then .roundBalanced
  else .immediate

def Window.allComplete (spec : CollectionWindowSpec) (window : Window ρ) :
    Prop :=
  ∀ index < spec.maxCandidateGroups, window.candidateComplete index

def Window.closingRule (spec : CollectionWindowSpec) (window : Window ρ) :
    Prop :=
  match spec.closeMode with
  | .immediate =>
    spec.targetAcceptedGroups ≤ window.accepted.keys.length ∨
      window.allComplete spec
  | .drainBudget => window.allComplete spec
  | .roundBalanced =>
    (∃ rounds, 1 ≤ rounds ∧ ∀ index, window.candidateComplete index ↔
      index < rounds * spec.candidateRoundSize) ∧
    (spec.targetAcceptedGroups ≤ window.accepted.keys.length ∨
      window.allComplete spec)

def Window.InBudget (spec : CollectionWindowSpec) (window : Window ρ) : Prop :=
  ∀ index, window.candidateComplete index → index < spec.maxCandidateGroups

section Rule

variable {spec : CollectionWindowSpec} {window : Window ρ}

theorem budgetExhausted_iff (hexclusive : window.Exclusive)
    (hbudget : window.InBudget spec) :
    window.budgetExhausted spec ↔ window.allComplete spec := by
  have hsubset : window.completedIds ⊆
      Finset.range spec.maxCandidateGroups := by
    intro index hindex
    exact Finset.mem_range.mpr (hbudget index
      (Window.mem_completedIds.mp hindex))
  unfold Window.budgetExhausted
  rw [Window.completedCandidateCount_eq_card hexclusive]
  constructor
  · intro hcount index hindex
    have hall : window.completedIds =
        Finset.range spec.maxCandidateGroups := by
      apply Finset.eq_of_subset_of_card_le hsubset
      rw [Finset.card_range]
      exact hcount
    rw [← Window.mem_completedIds, hall]
    exact Finset.mem_range.mpr hindex
  · intro hall
    have hsuperset : Finset.range spec.maxCandidateGroups ⊆
        window.completedIds := by
      intro index hindex
      exact Window.mem_completedIds.mpr
        (hall index (Finset.mem_range.mp hindex))
    have hcard := Finset.card_le_card hsuperset
    rwa [Finset.card_range] at hcard

theorem closeReady_iff (hexclusive : window.Exclusive)
    (hbudget : window.InBudget spec) :
    window.closeReady spec ↔ window.closingRule spec := by
  have hexhausted := budgetExhausted_iff hexclusive hbudget
  unfold Window.closeReady Window.closingRule WindowFields.closeMode
  by_cases hdrain : spec.drainCandidateBudget = true
  · rw [if_pos hdrain, if_pos hdrain]
    exact hexhausted
  · rw [if_neg hdrain, if_neg hdrain]
    unfold Window.targetReached
    by_cases hround : spec.completeRoundAfterTarget = true
    · have hsize := spec.bounds.roundSize_pos hround
      rw [if_pos hround, if_pos hround, hexhausted,
        Window.completedRound_iff hsize]
      simp only [Window.completedIds_eq_range_iff]
      rfl
    · rw [if_neg hround, if_neg hround, hexhausted]

theorem closingRule_of_allComplete (hbudget : window.InBudget spec)
    (hall : window.allComplete spec) : window.closingRule spec := by
  unfold Window.closingRule
  cases hmode : spec.closeMode with
  | immediate => exact .inr hall
  | drainBudget => exact hall
  | roundBalanced =>
    have hround : spec.completeRoundAfterTarget = true := by
      unfold WindowFields.closeMode at hmode
      by_contra hround
      rw [if_neg hround] at hmode
      split_ifs at hmode
    have hsize := spec.bounds.roundSize_pos hround
    have hpositive : 0 < spec.maxCandidateGroups := by
      have hbounds := spec.bounds
      have := hbounds.one_le_minimum
      have := hbounds.minimum_le_target
      have := hbounds.target_le_max
      omega
    obtain ⟨rounds, hrounds⟩ := spec.bounds.roundSize_dvd hround
    rw [Nat.mul_comm] at hrounds
    refine ⟨⟨rounds, ?_, ?_⟩, .inr hall⟩
    · by_contra hzero
      rw [Nat.lt_one_iff.mp (not_le.mp hzero), Nat.zero_mul] at hrounds
      omega
    · intro index
      rw [← hrounds]
      exact ⟨hbudget index, hall index⟩

end Rule

/-! ## The budget over a run -/

/-- Commits are for candidates of the schedule: `candidate_assignment` refuses
an index outside the budget. -/
def Operation.scheduled (spec : CollectionWindowSpec) : Operation ρ → Prop
  | .commit request =>
    request.assignment.candidateIndex < spec.maxCandidateGroups
  | _ => True

instance (spec : CollectionWindowSpec) (operation : Operation ρ) :
    Decidable (operation.scheduled spec) := by
  unfold Operation.scheduled
  cases operation <;> infer_instance

theorem normalizeCandidateIds_lt
    (hnames : Window.normalizeCandidateIds maximum names = .ok indices) :
    ∀ index ∈ indices, index < maximum := by
  induction names generalizing indices with
  | nil =>
    cases hnames
    exact nofun
  | cons name rest ih =>
    unfold Window.normalizeCandidateIds at hnames
    cases hparse : parseCandidateId name with
    | none =>
      simp [hparse] at hnames
    | some index =>
      rw [hparse] at hnames
      dsimp only at hnames
      rw [require_bind_eq_ok, bind_eq_ok] at hnames
      obtain ⟨hindex, others, hrest, hall⟩ := hnames
      cases hall
      intro other hother
      rcases List.mem_cons.mp hother with rfl | hother
      · exact hindex
      · exact ih hrest other hother

theorem skipLoop_complete (hcomplete : (Window.skipLoop reason now indices
      window).2.candidateComplete index) :
    window.candidateComplete index ∨ index ∈ indices := by
  induction indices generalizing window with
  | nil => exact .inl hcomplete
  | cons skipped rest ih =>
    simp only [Window.skipLoop] at hcomplete
    by_cases hskipped : window.candidateComplete skipped
    · rw [if_pos hskipped] at hcomplete
      rcases ih hcomplete with hbefore | hrest
      · exact .inl hbefore
      · exact .inr (List.mem_cons_of_mem _ hrest)
    · rw [if_neg hskipped] at hcomplete
      rcases ih hcomplete with hmarked | hrest
      · by_cases hindex : index = skipped
        · exact .inr (hindex ▸ List.mem_cons_self)
        · left
          simpa [Window.markSkipped, Window.candidateComplete,
            AList.mem_insert, hindex] using hmarked
      · exact .inr (List.mem_cons_of_mem _ hrest)

theorem Operation.Effect.inBudget {spec : CollectionWindowSpec}
    {before after : Window ρ} {operation : Operation ρ}
    (heffect : Operation.Effect spec before operation reply after)
    (hmanifest : before.manifest = some spec.toManifest)
    (hscheduled : operation.scheduled spec) (hbudget : before.InBudget spec) :
    after.InBudget spec := by
  intro index hcomplete
  cases heffect with
  | leases hsame _ =>
    apply hbudget
    simpa only [Window.candidateComplete_iff, hsame.settledAs_iff]
      using hcomplete
  | @skipped _ _ _ manifest _ hfound hnames _ _ =>
    rw [hmanifest] at hfound
    cases hfound
    rcases skipLoop_complete hcomplete with hbefore | hskipped
    · exact hbudget index hbefore
    · exact normalizeCandidateIds_lt hnames index hskipped
  | @accepted request _ _ =>
    by_cases hindex : index = request.assignment.candidateIndex
    · rw [hindex]
      exact hscheduled
    · apply hbudget
      simpa [Window.publishAccepted, Window.candidateComplete,
        AList.mem_insert, hindex] using hcomplete
  | @rejected request _ _ =>
    by_cases hindex : index = request.assignment.candidateIndex
    · rw [hindex]
      exact hscheduled
    · apply hbudget
      simpa [Window.publishRejected, Window.candidateComplete,
        AList.mem_insert, hindex] using hcomplete
  | closed _ _ => exact hbudget index hcomplete

section Runs

variable {spec : CollectionWindowSpec} {events : List (StoreEvent ρ)}
  {final : Window ρ}

theorem StoreRun.inBudget
    (hrun : StoreRun spec (Window.initialized spec) events final)
    (hscheduled : ∀ event ∈ events, event.label.scheduled spec) :
    final.InBudget spec := by
  have hfinal : final.manifest = some spec.toManifest ∧
      final.InBudget spec := by
    apply hrun.guarded_invariant (fun _ operation => operation.scheduled spec)
      (fun window => window.manifest = some spec.toManifest ∧
        window.InBudget spec)
    · intro window operation reply next hwindow hoperation hstep
      have heffect := Operation.Effect.of_apply (store_step_eq.mp hstep)
      constructor
      · rw [heffect.manifest, hwindow.1]
      · exact heffect.inBudget hwindow.1 hoperation hwindow.2
    · exact hscheduled
    · constructor
      · rfl
      · intro index hcomplete
        exact absurd hcomplete (by
          simp [Window.initialized, Window.absent, Window.candidateComplete])
  exact hfinal.2

end Runs

/-! ## Committed groups -/

theorem commitGroup_lengths {spec : CollectionWindowSpec}
    {request : Window.CommitRequest ρ} {window next : Window ρ}
    (hcommit : window.commitGroup spec request =
      (.committed .accepted, next)) :
    request.rollout.length = spec.groupSize ∧
      request.rolloutEndObs.length = spec.groupSize := by
  unfold Window.commitGroup at hcommit
  dsimp only at hcommit
  by_cases hlength : request.rollout.length ≠ spec.groupSize ∨
      request.rolloutEndObs.length ≠ spec.groupSize
  · rw [if_pos hlength] at hcommit
    cases hcommit
  · push Not at hlength
    exact hlength

structure LoadedGroup (ρ : Type) where
  rollout : List ρ
  rolloutEndObs : List ρ
  groupRecord : GroupRecord

def AcceptedGroup.loaded (group : AcceptedGroup ρ) : LoadedGroup ρ :=
  ⟨group.rollout, group.rolloutEndObs, group.groupRecord⟩

def Window.CommitRequest.loaded (request : Window.CommitRequest ρ) :
    LoadedGroup ρ :=
  ⟨request.rollout, request.rolloutEndObs, request.groupRecord⟩

def HandedOver (events : List (StoreEvent ρ)) (index : ℕ)
    (group : LoadedGroup ρ) : Prop :=
  ∃ event ∈ events, ∃ request, event.label = .commit request ∧
    event.output = .committed .accepted ∧
    request.assignment.candidateIndex = index ∧ group = request.loaded

structure Committed (spec : CollectionWindowSpec)
    (events : List (StoreEvent ρ)) (index : ℕ) (group : AcceptedGroup ρ) :
    Prop where
  policy : group.policy = spec.policy
  rolloutLength : group.rollout.length = spec.groupSize
  endObsLength : group.rolloutEndObs.length = spec.groupSize
  handedOver : HandedOver events index group.loaded

theorem Committed.mono (hcommitted : Committed spec events index group)
    (event : StoreEvent ρ) :
    Committed spec (events ++ [event]) index group := by
  obtain ⟨earlier, hearlier, hrequest⟩ := hcommitted.handedOver
  exact ⟨hcommitted.policy, hcommitted.rolloutLength, hcommitted.endObsLength,
    earlier, List.mem_append_left _ hearlier, hrequest⟩

theorem committed_publishAccepted {window : Window ρ}
    {request : Window.CommitRequest ρ}
    (hcommit : window.commitGroup spec request =
      (.committed .accepted, window.publishAccepted spec request))
    (hprior : ∀ index, ∀ group ∈ window.accepted.lookup index,
      Committed spec events index group) :
    ∀ index, ∀ group ∈
        (window.publishAccepted spec request).accepted.lookup index,
      Committed spec (events ++ [⟨window, .commit request,
        .committed .accepted, window.publishAccepted spec request⟩])
        index group := by
  intro index group hgroup
  by_cases hindex : index = request.assignment.candidateIndex
  · subst hindex
    simp only [Window.publishAccepted, AList.lookup_insert,
      Option.mem_def, Option.some.injEq] at hgroup
    subst hgroup
    obtain ⟨hrollout, hendObs⟩ := commitGroup_lengths hcommit
    exact ⟨rfl, hrollout, hendObs, _, List.mem_append_right _
      (List.mem_singleton_self _), request, rfl, rfl, rfl, rfl⟩
  · apply Committed.mono
    apply hprior
    simpa [Window.publishAccepted, AList.lookup_insert_ne hindex] using hgroup

theorem StoreRun.committed {final : Window ρ}
    (hrun : StoreRun spec (Window.initialized spec) events final) :
    ∀ index, ∀ group ∈ final.accepted.lookup index,
      Committed spec events index group := by
  induction hrun with
  | nil =>
    intro index group hgroup
    simp [Window.initialized, Window.absent] at hgroup
  | @snoc window next prior operation reply _ hstep ih =>
    have happly := store_step_eq.mp hstep
    have hsame : next.accepted = window.accepted →
        ∀ index, ∀ group ∈ next.accepted.lookup index,
          Committed spec (prior ++ [⟨window, operation, reply, next⟩])
            index group := by
      intro heq index group hgroup
      rw [heq] at hgroup
      exact (ih index group hgroup).mono _
    cases Operation.Effect.of_apply happly with
    | leases hleases _ => exact hsame hleases.accepted
    | skipped _ _ _ _ =>
      exact hsame (Window.skipLoop_frame _ _ _ _).2.2.2.1
    | accepted _ _ => exact committed_publishAccepted happly ih
    | rejected _ _ | closed _ _ => exact hsame rfl

/-! ## Loading -/

inductive LoadError
  | notClosed
  | notTrainable (outcome : Outcome)
  | outsideWindow (index : ℕ)
  | differentPolicy (index : ℕ)
  | invalidGroupSize (index : ℕ)
  deriving DecidableEq

namespace Window

def loadGroup (spec : CollectionWindowSpec) (window : Window ρ)
    (index : ℕ) : Except LoadError (LoadedGroup ρ) :=
  match window.accepted.lookup index with
  | none => .error (.outsideWindow index)
  | some group => do
    require (group.policy = spec.policy) (.differentPolicy index)
    require (group.rollout.length = spec.groupSize ∧
      group.rolloutEndObs.length = spec.groupSize) (.invalidGroupSize index)
    .ok group.loaded

def loadSelectedGroups (spec : CollectionWindowSpec) (window : Window ρ) :
    Except LoadError (List (LoadedGroup ρ)) :=
  match window.closed with
  | none => .error .notClosed
  | some record =>
    if record.outcome ≠ .ready then .error (.notTrainable record.outcome)
    else record.selectedGroups.mapM (window.loadGroup spec)

end Window

theorem loadGroup_ok {window : Window ρ}
    (hcommitted : ∀ group ∈ window.accepted.lookup index,
      Committed spec events index group) (haccepted : index ∈ window.accepted) :
    ∃ loaded, window.loadGroup spec index = .ok loaded ∧
      HandedOver events index loaded := by
  obtain ⟨group, hgroup⟩ :=
    Option.isSome_iff_exists.mp (AList.lookup_isSome.mpr haccepted)
  have hcommit := hcommitted group hgroup
  refine ⟨group.loaded, ?_, hcommit.handedOver⟩
  unfold Window.loadGroup
  rw [hgroup]
  dsimp only
  rw [require_bind_eq_ok, require_bind_eq_ok]
  exact ⟨hcommit.policy, ⟨hcommit.rolloutLength, hcommit.endObsLength⟩, rfl⟩

theorem mapM_loadGroup_ok {window : Window ρ} {indices : List ℕ}
    (hcommitted : ∀ index, ∀ group ∈ window.accepted.lookup index,
      Committed spec events index group)
    (haccepted : ∀ index ∈ indices, index ∈ window.accepted) :
    ∃ groups, indices.mapM (window.loadGroup spec) = .ok groups ∧
      List.Forall₂ (HandedOver events) indices groups := by
  induction indices with
  | nil => exact ⟨[], rfl, .nil⟩
  | cons index rest ih =>
    obtain ⟨loaded, hloaded, hhanded⟩ := loadGroup_ok (hcommitted index)
      (haccepted index List.mem_cons_self)
    obtain ⟨groups, hgroups, hrest⟩ := ih fun other hother =>
      haccepted other (List.mem_cons_of_mem _ hother)
    refine ⟨loaded :: groups, ?_, .cons hhanded hrest⟩
    exact mapM_eq_ok.mpr (.cons hloaded (mapM_eq_ok.mp hgroups))

/-! ## What a ready window has selected -/

section Selection

variable {spec : CollectionWindowSpec} {window : Window ρ}

section

variable (hready : window.closeOutcome spec = .ready)

include hready

theorem selection_ready : window.selection spec =
      if spec.closeMode = .immediate then
        window.acceptedNames.take spec.targetAcceptedGroups
      else window.acceptedNames := by
  unfold Window.selection WindowFields.closeMode
  rw [hready]
  dsimp only
  by_cases hdrain : spec.drainCandidateBudget = true
  · simp [hdrain]
  · by_cases hround : spec.completeRoundAfterTarget = true
    · simp [hdrain, hround]
    · simp [hdrain, hround]

theorem minimum_le_of_ready :
    spec.minimumAcceptedGroups ≤ window.accepted.keys.length := by
  unfold Window.closeOutcome at hready
  by_cases hfew : window.accepted.keys.length < spec.minimumAcceptedGroups
  · rw [if_pos hfew] at hready
    cases hready
  · exact not_lt.mp hfew

theorem minimum_le_selection :
    spec.minimumAcceptedGroups ≤ (window.selection spec).length := by
  have hmany := minimum_le_of_ready hready
  have htarget := spec.bounds.minimum_le_target
  have hnames : window.acceptedNames.length =
      window.accepted.keys.length := length_sortedNames _
  rw [selection_ready hready]
  by_cases hmode : spec.closeMode = .immediate
  · rw [if_pos hmode, List.length_take]
    omega
  · rw [if_neg hmode]
    omega

theorem selection_le_target (hmode : spec.closeMode = .immediate) :
    (window.selection spec).length ≤ spec.targetAcceptedGroups := by
  rw [selection_ready hready, if_pos hmode]
  exact List.length_take_le _ _

end

theorem mem_accepted_of_mem_selection
    (hready : window.closeOutcome spec = .ready)
    (hindex : index ∈ window.selection spec) : index ∈ window.accepted := by
  have hnames : index ∈ window.acceptedNames := by
    rw [selection_ready hready] at hindex
    by_cases hmode : spec.closeMode = .immediate
    · rw [if_pos hmode] at hindex
      exact List.mem_of_mem_take hindex
    · rw [if_neg hmode] at hindex
      exact hindex
  exact AList.mem_keys.mp (mem_sortedNames.mp hnames)

end Selection

/-! ## The contract of a close -/

/-- One round of the waiting loop of a worker: the answers of
`close_if_ready`, `scan` and `claim_candidate`, each under its own lock.
`none` means that the worker waits. -/
def pollQueue (closed : Option ClosedRecord) (scanClosed : Bool)
    (lease : Option CandidateLease) : Option (Option CandidateLease) :=
  if closed.isSome ∨ scanClosed then some none
  else lease.map some

structure CloseContract (spec : CollectionWindowSpec)
    (events : List (StoreEvent ρ)) (final : Window ρ) : Prop where
  closes : ∀ now, (final.closeIfReady spec now).2.closed.isSome ↔
    final.closingRule spec
  replies : ∀ now, (final.closeIfReady spec now).1 =
    .closeState (final.closeIfReady spec now).2.closed
  lasting : final.allComplete spec → ∀ operation : Operation ρ,
    (operation.apply spec final).2.allComplete spec
  exhausted : final.allComplete spec → ∀ now scanClosed lease,
    pollQueue (final.closeIfReady spec now).2.closed scanClosed lease =
      some none
  kept : ∀ record ∈ final.closed, ∀ operation : Operation ρ,
    record ∈ (operation.apply spec final).2.closed
  enough : ∀ record ∈ final.closed, record.outcome = .ready →
    spec.minimumAcceptedGroups ≤ record.selectedGroups.length
  truncated : ∀ record ∈ final.closed, record.outcome = .ready →
    spec.closeMode = .immediate →
    record.selectedGroups.length ≤ spec.targetAcceptedGroups
  loads : ∀ record ∈ final.closed, record.outcome = .ready →
    ∃ groups, final.loadSelectedGroups spec = .ok groups ∧
      List.Forall₂ (HandedOver events) record.selectedGroups groups

section Contract

variable {spec : CollectionWindowSpec} {events : List (StoreEvent ρ)}
  {final : Window ρ}

theorem closeIfReady_closed (now : ℚ) :
    (final.closeIfReady spec now).2.closed.isSome ↔
      final.closed.isSome ∨ final.closeReady spec := by
  unfold Window.closeIfReady
  cases hclosed : final.closed with
  | some record => simp [hclosed]
  | none =>
    dsimp only
    by_cases hready : final.closeReady spec
    · simp [hready]
    · simp [hready, hclosed]

theorem closeIfReady_reply (now : ℚ) : (final.closeIfReady spec now).1 =
      .closeState (final.closeIfReady spec now).2.closed := by
  unfold Window.closeIfReady
  cases hclosed : final.closed with
  | some record => simp [hclosed]
  | none =>
    dsimp only
    by_cases hready : final.closeReady spec
    · simp [hready]
    · simp [hready, hclosed]

theorem Operation.Effect.closed_kept {before after : Window ρ}
    (heffect : Operation.Effect spec before operation reply after)
    (hrecord : before.closed = some record) : after.closed = some record := by
  have hnot : ¬before.isOpen := by
    intro hopen
    rw [hopen.1] at hrecord
    cases hrecord
  cases heffect with
  | leases hsame _ =>
    rw [hsame.closed]
    exact hrecord
  | skipped _ _ _ hopen => exact absurd hopen hnot
  | accepted hguards _ | rejected hguards _ =>
    exact absurd hguards.windowOpen hnot
  | closed hnone _ =>
    simp [hnone] at hrecord

end Contract

end CollectionStore
end VerlVla
