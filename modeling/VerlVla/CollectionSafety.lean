import VerlVla.CollectionOperations

/-!
# Safety of the collection store

Over every run on an initialized window, a candidate gets at most one terminal
record, at most one commit publishes it, and a lease that was taken away never
publishes.
-/

namespace VerlVla
namespace CollectionStore

open LeaseLifecycle Transition

variable {ρ : Type}

/-! ## Events of a run -/

/-- A commit of the candidate that returned accepted or rejected. -/
def publishes (index : ℕ) (event : StoreEvent ρ) : Bool :=
  match event.label with
  | .commit request =>
    request.assignment.candidateIndex = index && event.output.published
  | _ => false

def publishesUnder (index : ℕ) (token : String) (event : StoreEvent ρ) : Prop :=
  ∃ request held, event.label = .commit request ∧ request.lease = some held ∧
    request.assignment.candidateIndex = index ∧ held.token = token ∧
    event.output.published = true

def revokes (index : ℕ) (event : StoreEvent ρ) : Prop :=
  match event.label, event.output with
  | .release lease, .released true => lease.assignment.candidateIndex = index
  | _, .claimed (some lease) => lease.assignment.candidateIndex = index
  | _, .abandoned candidates => index ∈ candidates
  | _, .skipped candidates => index ∈ candidates
  | _, _ => False

def Reply.issuedToken : Reply → Option String
  | .claimed (some lease) => some lease.token
  | _ => none

/-- The lease tokens that the claims of a run handed out. -/
def issuedTokens (events : List (StoreEvent ρ)) : List String :=
  events.filterMap fun event => event.output.issuedToken

/-- Under fresh tokens, a token handed out before an event is handed out
neither by the event nor after it. -/
theorem token_not_reissued
    (hfresh : (issuedTokens (left ++ event :: right)).Nodup)
    (hissued : token ∈ issuedTokens left) :
    event.output.issuedToken ≠ some token ∧ token ∉ issuedTokens right := by
  unfold issuedTokens at hfresh hissued ⊢
  rw [List.filterMap_append, List.nodup_append] at hfresh
  have hdisjoint := hfresh.2.2 token hissued
  constructor
  · intro htoken
    apply hdisjoint token ?_ rfl
    simp [htoken]
  · intro hright
    apply hdisjoint token ?_ rfl
    rw [List.filterMap_cons]
    split
    · exact hright
    · exact List.mem_cons_of_mem _ hright

theorem fst_mem_issuedTokens (hissued : ticket ∈ issuedFor index events) :
    ticket.1 ∈ issuedTokens events := by
  unfold issuedFor at hissued
  rcases List.mem_flatMap.mp hissued with ⟨event, hevent, hticket⟩
  apply List.mem_filterMap.mpr
  refine ⟨event, hevent, ?_⟩
  cases houtput : event.output with
  | claimed lease =>
    cases lease with
    | none => simp [houtput, Reply.issuedFor] at hticket
    | some lease =>
      simp only [houtput, Reply.issuedFor] at hticket
      split_ifs at hticket with hindex
      · have heq : ticket = lease.ticket := by simpa using hticket
        simp [Reply.issuedToken, heq, CandidateLease.ticket]
      · simp at hticket
  | _ => simp [houtput, Reply.issuedFor] at hticket

theorem status_of_revokes (hstep : event.label.apply spec event.before =
      (event.output, event.after)) (hrevokes : revokes index event)
    (hheld : event.after.status index = .leased ticket) :
    event.output.issuedToken = some ticket.1 := by
  rcases event with ⟨before, operation, reply, after⟩
  dsimp only at hstep hheld ⊢
  unfold revokes at hrevokes
  split at hrevokes
  next lease hlabel houtput =>
    dsimp only at hlabel houtput
    subst hlabel houtput hrevokes
    rw [Operation.released_inv hstep] at hheld
    exact absurd hheld
      (Window.status_ne_leased_of_lookup (AList.lookup_erase _ _) ticket)
  next lease hnew houtput =>
    dsimp only at houtput
    subst houtput hrevokes
    rcases Operation.claimed_inv hstep with
      ⟨_, _, _, _, _, _, _, _, hloop⟩
    have hstatus := Window.claimLoop_status (congrArg Prod.fst hloop)
    rw [hloop] at hstatus
    rw [hstatus] at hheld
    injection hheld with hticket
    simp [Reply.issuedToken, ← hticket, CandidateLease.ticket]
  next candidates hnew houtput =>
    dsimp only at houtput
    subst houtput
    rcases Operation.abandoned_inv hstep with ⟨ownerId, now, rfl⟩
    exact absurd hheld (Window.status_ne_leased_of_lookup
      (Window.abandonLoop_lookup (.inl hrevokes)) ticket)
  next candidates hnew houtput =>
    dsimp only at houtput
    subst houtput
    rcases Operation.skipped_inv hstep with ⟨reason, now, indices, hloop⟩
    have hcomplete : (Window.skipLoop reason now indices before).2
        |>.candidateComplete index := by
      apply Window.skipLoop_names
      rw [hloop]
      exact hrevokes
    rw [hloop] at hcomplete
    exact absurd hheld (Window.status_ne_leased_of_complete hcomplete ticket)
  next => exact hrevokes.elim

/-! ## Whole runs -/

section Runs

variable {spec : CollectionWindowSpec} {start final : Window ρ}
  {events left right : List (StoreEvent ρ)} {event : StoreEvent ρ}
  {index : ℕ}

theorem StoreRun.settledOnce (hrun : StoreRun spec start events final)
    (index : ℕ) : Window.SettledOnce start final index := by
  apply hrun.monotone (fun before after => before.SettledOnce after index)
  · exact fun window => .refl window index
  · exact Window.SettledOnce.trans
  · intro window operation reply next hstep
    have heffect := Operation.Effect.of_apply (store_step_eq.mp hstep)
    exact heffect.settledOnce index

theorem Window.initialized_exclusive :
    (initialized spec : Window ρ).Exclusive := by
  intro index verdict other hverdict
  cases verdict <;> simp [settledAs, initialized, absent] at hverdict

theorem StoreRun.exclusive (hrun : StoreRun spec start events final)
    (hstart : start.Exclusive) : final.Exclusive :=
  Window.SettledOnce.exclusive hrun.settledOnce hstart

theorem StoreRun.countP_publishes (hrun : StoreRun spec start events final)
    (index : ℕ) : events.countP (publishes index) ≤ 1 := by
  apply hrun.countP_le_one fun window => window.candidateComplete index
  · intro window operation reply next hcomplete hstep
    have heffect := Operation.Effect.of_apply (store_step_eq.mp hstep)
    exact (heffect.settledOnce index).candidateComplete hcomplete
  · intro event hstep hpublishes
    rw [store_step_eq] at hstep
    unfold publishes at hpublishes
    split at hpublishes
    next request hlabel =>
      simp only [Bool.and_eq_true, decide_eq_true_eq] at hpublishes
      rcases hpublishes with ⟨hindex, hpublished⟩
      rcases (Operation.Effect.of_apply hstep).commit_inv hpublished with
        ⟨other, hother, hguards, hcomplete⟩
      rw [hlabel] at hother
      injection hother with hrequest
      subst hrequest hindex
      exact ⟨hguards.incomplete, hcomplete⟩
    next => exact absurd hpublishes (by simp)

theorem Window.initialized_status (index : ℕ) :
    (initialized spec : Window ρ).status index = .idle := by
  simp [status, leaseStatus, initialized, absent]

theorem StoreRun.token_issued
    (hrun : StoreRun spec (Window.initialized spec) events final)
    (hopen : ¬final.candidateComplete index)
    (hold : old ∈ final.leases.lookup index) :
    old.token ∈ issuedTokens events := by
  have hstatus : final.status index = .leased old.ticket :=
    Window.status_eq_leased_iff.mpr ⟨hopen, old, hold, rfl⟩
  have hadvance := hrun.advance index
  rw [hstatus, Window.initialized_status] at hadvance
  rcases hadvance.held_or_issued with hidle | hissued
  · cases hidle
  · exact fst_mem_issuedTokens hissued

theorem StoreRun.revoked_not_published
    (hrun : StoreRun spec (Window.initialized spec)
      (left ++ event :: right) final)
    (hfresh : (issuedTokens (left ++ event :: right)).Nodup)
    (hold : old ∈ event.before.leases.lookup index)
    (hrevokes : revokes index event) (hlater : later ∈ right) :
    ¬publishesUnder index old.token later := by
  rintro ⟨request, held, hlabel, hlease, hindex, htoken, hpublished⟩
  rcases List.append_of_mem hlater with ⟨middle, rest, rfl⟩
  have hcut := hrun.at_event
  have hstep := store_step_eq.mp hcut.2.1
  have hmiddle := hcut.2.2.at_event
  -- The published commit found its own lease in the lease file.
  have hguards : later.before.Publishable request := by
    have heffect := Operation.Effect.of_apply (store_step_eq.mp hmiddle.2.1)
    rcases heffect.commit_inv hpublished with ⟨other, hother, hguards, _⟩
    rw [hlabel] at hother
    injection hother with hrequest
    rwa [hrequest]
  have hassignment := hguards.leaseAssignment held hlease
  have hstatus : later.before.status index = .leased held.ticket := by
    apply Window.status_eq_leased_iff.mpr
    have hcurrent :=
      Window.leaseIsCurrent_iff.mp (hguards.leaseCurrent held hlease)
    rw [hassignment, hindex] at hcurrent
    exact ⟨hindex ▸ hguards.incomplete, hcurrent⟩
  have hopen : ¬event.before.candidateComplete index := by
    intro hcomplete
    have heffect := Operation.Effect.of_apply hstep
    have hafter := (heffect.settledOnce index).candidateComplete hcomplete
    have hbefore :=
      (StoreRun.settledOnce hmiddle.1 index).candidateComplete hafter
    exact hguards.incomplete (hindex ▸ hbefore)
  have hissued := StoreRun.token_issued hcut.1 hopen hold
  have hreissued := token_not_reissued hfresh hissued
  have hadvance := StoreRun.advance hmiddle.1 index
  rw [hstatus] at hadvance
  rcases hadvance.held_or_issued with hheld | hagain
  · have htaken := status_of_revokes hstep hrevokes hheld
    rw [show held.ticket.1 = old.token from htoken] at htaken
    exact hreissued.1 htaken
  · have htaken := fst_mem_issuedTokens hagain
    rw [show held.ticket.1 = old.token from htoken] at htaken
    apply hreissued.2
    unfold issuedTokens at htaken ⊢
    rw [List.filterMap_append]
    exact List.mem_append_left _ htaken

/-- The safety properties of a window over a run of its operations.  Only
`revoked` relies on `secrets.token_hex` not handing out a token twice. -/
structure StoreSafety (events : List (StoreEvent ρ)) (final : Window ρ) :
    Prop where
  exclusive : ∀ index left right, final.settledAs index left →
    final.settledAs index right → left = right
  stable : ∀ event ∈ events, ∀ index verdict,
    event.before.settledAs index verdict → final.settledAs index verdict
  publishedOnce : ∀ index, events.countP (publishes index) ≤ 1
  holdsLease : ∀ event ∈ events, ∀ request held,
    event.label = .commit request → request.lease = some held →
    event.output.published = true →
    held.assignment = request.assignment ∧ event.before.leaseIsCurrent held
  revoked : (issuedTokens events).Nodup →
    ∀ left event right, events = left ++ event :: right →
    ∀ index, ∀ old ∈ event.before.leases.lookup index, revokes index event →
      ∀ later ∈ right, ¬publishesUnder index old.token later
  claimsOpen : ∀ event ∈ events, ∀ lease,
    event.output = .claimed (some lease) →
    ¬event.before.candidateComplete lease.assignment.candidateIndex
  claimsFree : ∀ event ∈ events,
    ∀ assignments ownerId timeout preferred now token lease,
    event.label = .claim assignments ownerId timeout preferred now token →
    event.output = .claimed (some lease) →
    lease.ownerId = ownerId ∧ ∀ current ∈
        event.before.leases.lookup lease.assignment.candidateIndex,
        current.ownerId ≠ ownerId → current.expiresAtUnixS ≤ now

theorem collection_store_safe
    (hrun : StoreRun spec (Window.initialized spec) events final) :
    StoreSafety events final := by
  constructor
  · exact StoreRun.exclusive hrun Window.initialized_exclusive
  · intro event hevent index verdict hsettled
    rcases List.append_of_mem hevent with ⟨left, right, rfl⟩
    have hcut := hrun.at_event
    have hsuffix : StoreRun spec event.before (event :: right) final :=
      Run.cons hcut.2.1 hcut.2.2
    exact (StoreRun.settledOnce hsuffix index).settledAs hsettled
  · exact StoreRun.countP_publishes hrun
  · intro event hevent request held hlabel hlease hpublished
    have hstep := store_step_eq.mp (hrun.step_of_mem hevent)
    rcases (Operation.Effect.of_apply hstep).commit_inv hpublished with
      ⟨other, hother, hguards, _⟩
    rw [hlabel] at hother
    injection hother with hrequest
    subst hrequest
    exact ⟨hguards.leaseAssignment held hlease,
      hguards.leaseCurrent held hlease⟩
  · intro hfresh left event right hevents index old hold hrevokes later hlater
    subst hevents
    exact StoreRun.revoked_not_published hrun hfresh hold hrevokes hlater
  · intro event hevent lease houtput
    have hstep := store_step_eq.mp (hrun.step_of_mem hevent)
    rw [houtput] at hstep
    rcases Operation.claimed_inv hstep with ⟨_, _, _, _, _, _, _, _, hloop⟩
    exact (Window.claimLoop_claimable (congrArg Prod.fst hloop)).incomplete
  · intro event hevent assignments ownerId timeout preferred now token lease
      hlabel houtput
    have hstep := store_step_eq.mp (hrun.step_of_mem hevent)
    rw [houtput] at hstep
    rcases Operation.claimed_inv hstep with
      ⟨_, _, _, _, _, _, hclaim, _, hloop⟩
    rw [hlabel] at hclaim
    cases hclaim
    have hclaimable := Window.claimLoop_claimable (congrArg Prod.fst hloop)
    refine ⟨hclaimable.owner, ?_⟩
    intro current hcurrent howner
    by_contra hlive
    apply hclaimable.available
    exact ⟨current, hcurrent, howner, not_le.mp hlive⟩

end Runs

def pairAssignment (index : ℕ) : CandidateAssignment where
  candidateIndex := index
  taskName := "task"
  taskId := 0
  suiteId := 0
  layoutId := 0
  policySeeds := []

def pairLease (index : ℕ) (ownerId token : String) (now : ℚ) :
    CandidateLease where
  assignment := pairAssignment index
  ownerId := ownerId
  token := token
  claimedAtUnixS := now
  heartbeatAtUnixS := now
  expiresAtUnixS := now + 10

def pairCommit (index : ℕ) (lease : CandidateLease) (informative : Bool) :
    Window.CommitRequest Unit where
  assignment := pairAssignment index
  rollout := List.replicate 8 ()
  rolloutEndObs := List.replicate 8 ()
  groupRecord :=
    { groupId := candidateId index
      rolloutPolicyVersion := 1
      informative := informative }
  lease := some lease

/-- The first owner loses its expired lease to the second one. -/
def reclaimedOperations : List (Operation Unit) :=
  let assignments := [pairAssignment 0, pairAssignment 1]
  [.claim assignments "a" 10 none 0 "t0",
    .claim assignments "b" 10 none 20 "t1",
    .commit (pairCommit 0 (pairLease 0 "a" "t0" 0) true),
    .commit (pairCommit 0 (pairLease 0 "b" "t1" 20) true),
    .claim assignments "a" 10 none 21 "t2",
    .commit (pairCommit 1 (pairLease 1 "a" "t2" 21) true),
    .closeIfReady 22]

theorem collection_store_safe_reclaimed :
    let run := replay pairSpec reclaimedOperations
    (issuedTokens run.1).Nodup ∧
      (run.1.map (·.output))[2]? = some (.committed .staleLease) ∧
      run.1.countP (publishes 0) = 1 ∧ StoreSafety run.1 run.2 := by
  refine ⟨by decide +kernel, by decide +kernel, by decide +kernel, ?_⟩
  exact collection_store_safe (replay_run pairSpec reclaimedOperations)

end CollectionStore
end VerlVla
