import VerlVla.CollectionStore
import VerlVla.LeaseLifecycle

/-!
# The collection store refines the lease lifecycle

Seen from one candidate, every operation of the store is a move of the leased
work item of `LeaseLifecycle`: the candidate is idle, leased under a token and
an owner, or settled as accepted, rejected or skipped.  The refinement is
proved once per mutation of the window and then lifted through the loops, the
operations and whole runs.
-/

namespace VerlVla
namespace CollectionStore

open LeaseLifecycle

inductive Verdict
  | accepted
  | rejected
  | skipped
deriving DecidableEq

/-- A lease is recognised by its token together with its owner. -/
abbrev Ticket := String × String

def CandidateLease.ticket (lease : CandidateLease) : Ticket :=
  (lease.token, lease.ownerId)

variable {ρ : Type}

namespace Window

def leaseStatus (window : Window ρ) (index : ℕ) : Status Ticket Verdict :=
  match window.leases.lookup index with
  | none => .idle
  | some lease => .leased lease.ticket

/-- What the files of the window say about one candidate. -/
def status (window : Window ρ) (index : ℕ) : Status Ticket Verdict :=
  if index ∈ window.accepted then .settled .accepted
  else if index ∈ window.rejected then .settled .rejected
  else if index ∈ window.skipped then .settled .skipped
  else window.leaseStatus index

theorem leaseStatus_not_isSettled (window : Window ρ) (index : ℕ) :
    ¬(window.leaseStatus index).isSettled := by
  unfold leaseStatus
  cases window.leases.lookup index <;> simp [Status.isSettled]

theorem status_isSettled_iff (window : Window ρ) (index : ℕ) :
    (window.status index).isSettled ↔ window.candidateComplete index := by
  have hlease := window.leaseStatus_not_isSettled index
  unfold status candidateComplete
  split_ifs <;> simp_all [Status.isSettled]

variable {window : Window ρ} {index : ℕ} {lease : CandidateLease}

theorem status_of_not_complete (hopen : ¬window.candidateComplete index) :
    window.status index = window.leaseStatus index := by
  unfold candidateComplete at hopen
  unfold status
  push Not at hopen
  simp [hopen.1, hopen.2.1, hopen.2.2]

theorem status_eq_leased_iff : window.status index = .leased ticket ↔
      ¬window.candidateComplete index ∧
        ∃ lease ∈ window.leases.lookup index, lease.ticket = ticket := by
  by_cases hcomplete : window.candidateComplete index
  · have hsettled := (window.status_isSettled_iff index).mpr hcomplete
    constructor
    · intro hstatus
      rw [hstatus] at hsettled
      exact absurd hsettled (by simp [Status.isSettled])
    · intro hlease
      exact absurd hcomplete hlease.1
  · rw [status_of_not_complete hcomplete]
    unfold leaseStatus
    cases window.leases.lookup index <;> simp [hcomplete]

theorem leaseIsCurrent_iff : window.leaseIsCurrent lease ↔
      ∃ current ∈ window.leases.lookup lease.assignment.candidateIndex,
        current.ticket = lease.ticket := by
  simp [leaseIsCurrent, CandidateLease.ticket]

/-! ## Single mutations -/

@[simp] theorem status_appendEvent (window : Window ρ) (event : LeaseEvent)
    (index : ℕ) : (window.appendEvent event).status index =
      window.status index := rfl

theorem removeLease_complete_iff :
    (window.removeLease other).candidateComplete index ↔
      window.candidateComplete index := Iff.rfl

theorem writeLease_complete_iff :
    (window.writeLease lease).candidateComplete index ↔
      window.candidateComplete index := Iff.rfl

section

variable {before after : Window ρ}
  (haccepted : index ∈ after.accepted ↔ index ∈ before.accepted)
  (hrejected : index ∈ after.rejected ↔ index ∈ before.rejected)
  (hskipped : index ∈ after.skipped ↔ index ∈ before.skipped)

include haccepted hrejected hskipped

theorem status_congr
    (hlease : after.leases.lookup index = before.leases.lookup index) :
    after.status index = before.status index := by
  simp only [status, leaseStatus, haccepted, hrejected, hskipped, hlease]

theorem status_congr_of_complete (hcomplete : before.candidateComplete index) :
    after.status index = before.status index := by
  unfold candidateComplete at hcomplete
  unfold status
  simp only [haccepted, hrejected, hskipped]
  split_ifs <;> first | rfl | tauto

end

theorem advance_removeLease (window : Window ρ) (removed index : ℕ) :
    Advance (window.status index) []
      ((window.removeLease removed).status index) := by
  by_cases hcomplete : window.candidateComplete index
  · have hsame : (window.removeLease removed).status index =
        window.status index :=
      status_congr_of_complete Iff.rfl Iff.rfl Iff.rfl hcomplete
    rw [hsame]
    exact .refl
  · by_cases hindex : index = removed
    · subst hindex
      have hidle : (window.removeLease index).status index = .idle := by
        rw [status_of_not_complete (removeLease_complete_iff.not.mpr hcomplete)]
        simp [leaseStatus, removeLease]
      rw [hidle]
      refine Advance.refl.drop ?_
      rwa [status_isSettled_iff]
    · have hsame : (window.removeLease removed).status index =
          window.status index :=
        status_congr Iff.rfl Iff.rfl Iff.rfl (AList.lookup_erase_ne hindex)
      rw [hsame]
      exact .refl

theorem status_writeLease
    (hopen : ¬window.candidateComplete lease.assignment.candidateIndex) :
    (window.writeLease lease).status lease.assignment.candidateIndex =
      .leased lease.ticket := by
  rw [status_of_not_complete (writeLease_complete_iff.not.mpr hopen)]
  simp [leaseStatus, writeLease]

theorem status_writeLease_of_ne (hindex : index ≠ lease.assignment.candidateIndex) :
    (window.writeLease lease).status index = window.status index :=
  status_congr Iff.rfl Iff.rfl Iff.rfl (AList.lookup_insert_ne hindex)

theorem status_writeLease_of_current
    {renewed : CandidateLease} (hcurrent : window.leaseIsCurrent lease)
    (hassignment : renewed.assignment = lease.assignment)
    (hticket : renewed.ticket = lease.ticket) (index : ℕ) :
    (window.writeLease renewed).status index = window.status index := by
  have hstored := leaseIsCurrent_iff.mp hcurrent
  rw [← hassignment, ← hticket] at hstored
  by_cases hindex : index = renewed.assignment.candidateIndex
  · subst hindex
    by_cases hcomplete :
        window.candidateComplete renewed.assignment.candidateIndex
    · exact status_congr_of_complete Iff.rfl Iff.rfl Iff.rfl hcomplete
    · rw [status_writeLease hcomplete]
      symm
      exact status_eq_leased_iff.mpr ⟨hcomplete, hstored⟩
  · exact status_writeLease_of_ne hindex

theorem status_markSkipped {skipped : ℕ}
    (hopen : ¬window.candidateComplete skipped) (reason : String) (now : ℚ) :
    (window.markSkipped reason now skipped).status skipped =
      .settled .skipped := by
  unfold candidateComplete at hopen
  push Not at hopen
  simp [status, markSkipped, hopen.1, hopen.2.1]

theorem status_markSkipped_of_ne {skipped : ℕ}
    (hindex : index ≠ skipped) (reason : String) (now : ℚ) :
    (window.markSkipped reason now skipped).status index =
      window.status index := by
  refine status_congr Iff.rfl Iff.rfl ?_ (AList.lookup_erase_ne hindex)
  simp [markSkipped, AList.mem_insert, hindex]

theorem status_publishAccepted (spec : CollectionWindowSpec)
    (request : CommitRequest ρ) (window : Window ρ) :
    (window.publishAccepted spec request).status
        request.assignment.candidateIndex = .settled .accepted := by
  simp [status, publishAccepted]

theorem status_publishAccepted_of_ne (spec : CollectionWindowSpec)
    {request : CommitRequest ρ}
    (hindex : index ≠ request.assignment.candidateIndex) :
    (window.publishAccepted spec request).status index =
      window.status index := by
  refine status_congr ?_ Iff.rfl Iff.rfl (AList.lookup_erase_ne hindex)
  simp [publishAccepted, AList.mem_insert, hindex]

theorem status_publishRejected {request : CommitRequest ρ}
    (hopen : ¬window.candidateComplete request.assignment.candidateIndex) :
    (window.publishRejected spec request).status
        request.assignment.candidateIndex = .settled .rejected := by
  unfold candidateComplete at hopen
  simp only [not_or] at hopen
  simp [status, publishRejected, hopen.1]

theorem status_publishRejected_of_ne (spec : CollectionWindowSpec)
    {request : CommitRequest ρ}
    (hindex : index ≠ request.assignment.candidateIndex) :
    (window.publishRejected spec request).status index =
      window.status index := by
  refine status_congr Iff.rfl ?_ Iff.rfl (AList.lookup_erase_ne hindex)
  simp [publishRejected, AList.mem_insert, hindex]

theorem advance_of_settle {before after : Window ρ}
    (hopen : ¬before.candidateComplete settled)
    (hsettled : after.status settled = .settled verdict)
    (hother : ∀ index, index ≠ settled →
      after.status index = before.status index) (index : ℕ) :
    Advance (before.status index) [] (after.status index) := by
  by_cases hindex : index = settled
  · subst hindex
    rw [hsettled]
    refine Advance.refl.settle verdict ?_
    rwa [status_isSettled_iff]
  · rw [hother index hindex]
    exact .refl

end Window

/-! ## Loops and operations -/

def Reply.issuedFor (index : ℕ) : Reply → List Ticket
  | .claimed (some lease) =>
    if lease.assignment.candidateIndex = index then [lease.ticket] else []
  | _ => []

namespace Window

theorem claimLoop_advance (spec : CollectionWindowSpec) (ownerId : String)
    (leaseTimeoutSeconds now : ℚ) (token : String)
    (assignments : List CandidateAssignment) (window : Window ρ)
    (index : ℕ) :
    let claim := claimLoop spec ownerId leaseTimeoutSeconds now token
      assignments window
    Advance (window.status index)
      ((Reply.claimed claim.1).issuedFor index) (claim.2.status index) := by
  induction assignments generalizing window with
  | nil => exact .refl
  | cons assignment rest ih =>
    simp only [claimLoop]
    split_ifs with hround hcomplete hheld
    · have hremove := window.advance_removeLease
        assignment.candidateIndex index
      have hrest := ih (window.removeLease assignment.candidateIndex)
      exact hremove.trans hrest
    · exact ih window
    · simp only [Reply.issuedFor, status_appendEvent]
      split_ifs with hindex
      · subst hindex
        rw [status_writeLease hcomplete]
        refine Advance.refl.lease _ ?_
        rwa [status_isSettled_iff]
      · rw [status_writeLease_of_ne (fun heq => hindex heq.symm)]
        exact .refl
    · exact ih window

theorem skipLoop_advance (reason : String) (now : ℚ) (indices : List ℕ)
    (window : Window ρ) (index : ℕ) :
    Advance (window.status index) []
      ((skipLoop reason now indices window).2.status index) := by
  induction indices generalizing window with
  | nil => exact .refl
  | cons skipped rest ih =>
    simp only [skipLoop]
    split_ifs with hcomplete
    · exact ih window
    · have hmark := advance_of_settle hcomplete
        (status_markSkipped hcomplete reason now)
        (fun other hother => status_markSkipped_of_ne hother reason now)
        index
      exact hmark.trans (ih _)

theorem abandonLoop_advance (ownerId : String) (now : ℚ)
    (indices : List ℕ) (window : Window ρ) (index : ℕ) :
    Advance (window.status index) []
      ((indices.foldl (abandonLease ownerId now) window).status index) := by
  induction indices generalizing window with
  | nil => exact .refl
  | cons abandoned rest ih =>
    have hremove := window.advance_removeLease abandoned index
    exact hremove.trans (ih (abandonLease ownerId now window abandoned))

theorem commitGroup_advance (spec : CollectionWindowSpec)
    (request : CommitRequest ρ) (window : Window ρ) (index : ℕ) :
    Advance (window.status index) []
      ((window.commitGroup spec request).2.status index) := by
  unfold commitGroup
  dsimp only
  split_ifs with _ _ _ _ _ hcomplete _ _ _
  all_goals try exact .refl
  · exact advance_of_settle hcomplete
      (window.status_publishAccepted spec request)
      (fun other hother => status_publishAccepted_of_ne spec hother) index
  · exact advance_of_settle hcomplete (status_publishRejected hcomplete)
      (fun other hother => status_publishRejected_of_ne spec hother) index

end Window

theorem Operation.apply_advance (spec : CollectionWindowSpec)
    (window : Window ρ) (operation : Operation ρ) (index : ℕ) :
    Advance (window.status index)
      ((operation.apply spec window).1.issuedFor index)
      ((operation.apply spec window).2.status index) := by
  cases operation with
  | claim assignments ownerId timeout preferred now token =>
    simp only [apply, Window.claimCandidate]
    split_ifs
    all_goals try exact .refl
    exact Window.claimLoop_advance ..
  | renew lease timeout now =>
    simp only [apply, Window.renewCandidateLease]
    split_ifs with _ _ hcurrent
    all_goals try exact .refl
    let renewed : CandidateLease := { lease with
        heartbeatAtUnixS := now
        expiresAtUnixS := now + timeout }
    have hsame : (window.writeLease renewed).status index =
        window.status index := by
      apply Window.status_writeLease_of_current hcurrent <;> rfl
    rw [hsame]
    exact .refl
  | release lease =>
    simp only [apply, Window.releaseCandidateLease]
    split_ifs
    · exact window.advance_removeLease ..
    · exact .refl
  | abandon ownerId now =>
    simp only [apply, Window.abandonOwnerLeases]
    split_ifs
    · exact .refl
    · exact Window.abandonLoop_advance ..
  | skip candidateIds reason now =>
    simp only [apply, Window.skipWindowCandidates]
    repeat' split
    all_goals try exact .refl
    exact Window.skipLoop_advance ..
  | recordIntegrityFailure assignment diagnostics lease now =>
    simp only [apply, Window.recordIntegrityFailure]
    split_ifs <;> exact .refl
  | commit request =>
    have hadvance := window.commitGroup_advance spec request index
    have hreply : (window.commitGroup spec request).1.issuedFor index =
        [] := by
      unfold Window.commitGroup
      dsimp only
      split_ifs <;> rfl
    simpa only [apply, hreply] using hadvance
  | closeIfReady now =>
    simp only [apply, Window.closeIfReady]
    repeat' split
    all_goals exact .refl

/-- The tickets issued for one candidate along a run, in order. -/
def issuedFor (index : ℕ) (events : List (StoreEvent ρ)) : List Ticket :=
  events.flatMap fun event => event.output.issuedFor index

theorem StoreRun.advance {spec : CollectionWindowSpec}
    {start final : Window ρ} {events : List (StoreEvent ρ)}
    (hrun : StoreRun spec start events final) (index : ℕ) :
    Advance (start.status index) (issuedFor index events)
      (final.status index) := by
  induction hrun with
  | nil => exact .refl
  | @snoc state next prior operation reply _ hstep ih =>
    have hlast := operation.apply_advance spec state index
    rw [store_step_eq.mp hstep] at hlast
    have htrans := ih.trans hlast
    simpa [issuedFor] using htrans

end CollectionStore
end VerlVla
