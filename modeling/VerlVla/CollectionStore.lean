import VerlVla.CollectionSpec
import VerlVla.TransitionRun
import Mathlib.Data.Finset.Card
import Mathlib.Data.List.AList

/-!
# The collection store

One window directory of a frozen policy: the manifest, the OPEN and CLOSED
markers, the three terminal directories, the lease files and the event log.
Every operation below is the locked section of the source function of the same
name together with the checks made before the lock is taken.  Directories are
keyed by candidate index, which determines the candidate name.

Clock readings and the tokens drawn by `secrets.token_hex` are arguments of the
operations that read them.
-/

namespace VerlVla
namespace CollectionStore

/-- Exclusive, expiring ownership of one not-yet-committed candidate. -/
structure CandidateLease where
  assignment : CandidateAssignment
  ownerId : String
  token : String
  claimedAtUnixS : ℚ
  heartbeatAtUnixS : ℚ
  expiresAtUnixS : ℚ
deriving DecidableEq

structure GroupRecord where
  groupId : String
  rolloutPolicyVersion : ℤ
  informative : Bool
deriving DecidableEq

structure AcceptedGroup (ρ : Type) where
  rollout : List ρ
  rolloutEndObs : List ρ
  candidate : CandidateAssignment
  policy : PolicyIdentity
  groupRecord : GroupRecord

structure RejectedRecord where
  candidate : CandidateAssignment
  policy : PolicyIdentity
  groupRecord : GroupRecord

structure SkippedRecord where
  candidateId : String
  reason : String
  skippedAtUnixS : ℚ

structure IntegrityFailure where
  candidate : CandidateAssignment
  policy : PolicyIdentity
  diagnostics : String
  ownerId : Option String
  failedAtUnixS : ℚ

/-- The lines of `LEASE_EVENTS.jsonl`. -/
inductive LeaseEvent
  | claim (reclaimed : Bool) (assignment : CandidateAssignment)
      (ownerId token : String) (atUnixS : ℚ)
  | abandon (candidateId ownerId token : String) (atUnixS : ℚ)
  | integrityFailure (candidateId : String) (candidateIndex : ℕ)
      (ownerId : Option String) (atUnixS : ℚ)

inductive Outcome
  | ready
  | insufficientInformativeGroups
deriving DecidableEq

structure ClosedRecord where
  outcome : Outcome
  acceptedGroups : ℕ
  rejectedGroups : ℕ
  skippedCandidateGroups : ℕ
  completedCandidateGroups : ℕ
  completeRoundAfterTarget : Bool
  candidateRoundSize : ℕ
  drainCandidateBudget : Bool
  selectedGroups : List ℕ
  closedAtUnixS : ℚ
deriving DecidableEq

abbrev Directory (α : Type) := AList fun _ : ℕ => α

structure Window (ρ : Type) where
  manifest : Option StoredManifest
  openMarker : Bool
  closed : Option ClosedRecord
  accepted : Directory (AcceptedGroup ρ)
  rejected : Directory RejectedRecord
  skipped : Directory SkippedRecord
  integrityFailures : List IntegrityFailure
  leases : Directory CandidateLease
  leaseEvents : List LeaseEvent

inductive StoreError
  | ownerIdEmpty
  | leaseTimeoutNotPositive
  | assignmentsNotUnique
  | windowClosed
  | leaseMissing (candidateId : String)
  | leaseOwnershipChanged (candidateId : String)
  | skipArgumentsEmpty
  | manifestMissing
  | manifestMismatch (expected : WindowFields) (stored : StoredManifest)
  | invalidCandidateId (candidateId : String)
  | candidateIndexOutside (maximum : ℕ) (candidateId : String)
  | candidateIdsNotUnique
  | wrongGroupSize (candidateId : String) (groupSize rollout endObs : ℕ)
  | wrongPolicyVersion
  | wrongGroupId
  | leaseAssignmentMismatch
deriving DecidableEq

inductive CommitResult
  | accepted
  | rejected
  | duplicate
  | late
  | staleLease
deriving DecidableEq

/-- What an operation returns to its caller. -/
inductive Reply
  | claimed (lease : Option CandidateLease)
  | renewed (lease : CandidateLease)
  | released (wasHeld : Bool)
  | abandoned (candidates : List ℕ)
  | skipped (candidates : List ℕ)
  | integrityRecorded (written : Bool)
  | committed (result : CommitResult)
  | closeState (closed : Option ClosedRecord)
  | raised (error : StoreError)
deriving DecidableEq

variable {ρ : Type}

namespace Window

def absent : Window ρ where
  manifest := none
  openMarker := false
  closed := none
  accepted := ∅
  rejected := ∅
  skipped := ∅
  integrityFailures := []
  leases := ∅
  leaseEvents := []

/-- A window right after `initialize` created it. -/
def initialized (spec : CollectionWindowSpec) : Window ρ := { absent with
    manifest := some spec.toManifest
    openMarker := true }

def candidateComplete (window : Window ρ) (index : ℕ) : Prop :=
  index ∈ window.accepted ∨ index ∈ window.rejected ∨ index ∈ window.skipped

instance (window : Window ρ) (index : ℕ) :
    Decidable (window.candidateComplete index) :=
  inferInstanceAs (Decidable (_ ∨ _ ∨ _))

/-- The guard of `_verify_open_locked`. -/
def isOpen (window : Window ρ) : Prop :=
  window.closed = none ∧ window.openMarker = true

instance (window : Window ρ) : Decidable window.isOpen :=
  inferInstanceAs (Decidable (_ ∧ _))

def leaseIsCurrent (window : Window ρ) (lease : CandidateLease) : Prop :=
  ∃ current ∈ window.leases.lookup lease.assignment.candidateIndex,
    current.token = lease.token ∧ current.ownerId = lease.ownerId

instance (window : Window ρ) (lease : CandidateLease) :
    Decidable (window.leaseIsCurrent lease) :=
  match hlease : window.leases.lookup lease.assignment.candidateIndex with
  | none => isFalse (by simp [leaseIsCurrent, hlease])
  | some current =>
    decidable_of_iff
      (current.token = lease.token ∧ current.ownerId = lease.ownerId)
      (by simp [leaseIsCurrent, hlease])

/-- Allow a candidate only after every lane in the prior round committed. -/
def roundReadyToStart (spec : CollectionWindowSpec) (window : Window ρ)
    (index : ℕ) : Prop :=
  spec.completeRoundAfterTarget = true →
    ∀ earlier < index / spec.candidateRoundSize * spec.candidateRoundSize,
      window.candidateComplete earlier

instance (spec : CollectionWindowSpec) (window : Window ρ) (index : ℕ) :
    Decidable (window.roundReadyToStart spec index) :=
  inferInstanceAs (Decidable (_ → ∀ _ < _, _))

def removeLease (window : Window ρ) (index : ℕ) : Window ρ :=
  { window with leases := window.leases.erase index }

def writeLease (window : Window ρ) (lease : CandidateLease) : Window ρ :=
  { window with
    leases := window.leases.insert lease.assignment.candidateIndex lease }

def appendEvent (window : Window ρ) (event : LeaseEvent) : Window ρ :=
  { window with leaseEvents := window.leaseEvents ++ [event] }

/-! ## Claiming -/

/-- An unexpired lease of another owner blocks the candidate. -/
def heldByOther (window : Window ρ) (ownerId : String) (now : ℚ)
    (index : ℕ) : Prop :=
  ∃ current ∈ window.leases.lookup index,
    current.ownerId ≠ ownerId ∧ now < current.expiresAtUnixS

instance (window : Window ρ) (ownerId : String) (now : ℚ) (index : ℕ) :
    Decidable (window.heldByOther ownerId now index) :=
  match hlease : window.leases.lookup index with
  | none => isFalse (by simp [heldByOther, hlease])
  | some current =>
    decidable_of_iff (current.ownerId ≠ ownerId ∧ now < current.expiresAtUnixS)
      (by simp [heldByOther, hlease])

def claimLoop (spec : CollectionWindowSpec) (ownerId : String)
    (leaseTimeoutSeconds now : ℚ) (token : String) :
    List CandidateAssignment → Window ρ → Option CandidateLease × Window ρ
  | [], window => (none, window)
  | assignment :: rest, window =>
    let index := assignment.candidateIndex
    if ¬window.roundReadyToStart spec index then
      claimLoop spec ownerId leaseTimeoutSeconds now token rest window
    else if window.candidateComplete index then
      claimLoop spec ownerId leaseTimeoutSeconds now token rest
        (window.removeLease index)
    else if window.heldByOther ownerId now index then
      claimLoop spec ownerId leaseTimeoutSeconds now token rest window
    else
      let lease : CandidateLease :=
        { assignment := assignment
          ownerId := ownerId
          token := token
          claimedAtUnixS := now
          heartbeatAtUnixS := now
          expiresAtUnixS := now + leaseTimeoutSeconds }
      let event := LeaseEvent.claim (decide (index ∈ window.leases))
        assignment ownerId token now
      (some lease, (window.writeLease lease).appendEvent event)

def claimOrder (assignments : List CandidateAssignment)
    (preferredCondition : Option (String × ℤ)) : List CandidateAssignment :=
  let preferred := match preferredCondition with
    | none => assignments
    | some condition =>
      assignments.filter fun assignment =>
        (assignment.taskName, assignment.suiteId) = condition
  preferred.insertionSort fun left right =>
    left.candidateIndex ≤ right.candidateIndex

def claimCandidate (spec : CollectionWindowSpec)
    (assignments : List CandidateAssignment) (ownerId : String)
    (leaseTimeoutSeconds : ℚ) (preferredCondition : Option (String × ℤ))
    (now : ℚ) (token : String) (window : Window ρ) : Reply × Window ρ :=
  if ownerId = "" then (.raised .ownerIdEmpty, window)
  else if leaseTimeoutSeconds ≤ 0 then
    (.raised .leaseTimeoutNotPositive, window)
  else if ¬(assignments.map (·.candidateIndex)).Nodup then
    (.raised .assignmentsNotUnique, window)
  else if window.closed.isSome then (.claimed none, window)
  else if ¬window.isOpen then (.raised .windowClosed, window)
  else
    let claim := claimLoop spec ownerId leaseTimeoutSeconds now token
      (claimOrder assignments preferredCondition) window
    (.claimed claim.1, claim.2)

/-- Extend a live lease, rejecting a stale worker after reassignment. -/
def renewCandidateLease (lease : CandidateLease) (leaseTimeoutSeconds now : ℚ)
    (window : Window ρ) : Reply × Window ρ :=
  if leaseTimeoutSeconds ≤ 0 then
    (.raised .leaseTimeoutNotPositive, window)
  else if lease.assignment.candidateIndex ∉ window.leases then
    (.raised (.leaseMissing lease.assignment.candidateId), window)
  else if ¬window.leaseIsCurrent lease then
    (.raised (.leaseOwnershipChanged lease.assignment.candidateId), window)
  else
    let renewed : CandidateLease := { lease with
        heartbeatAtUnixS := now
        expiresAtUnixS := now + leaseTimeoutSeconds }
    (.renewed renewed, window.writeLease renewed)

def releaseCandidateLease (lease : CandidateLease) (window : Window ρ) :
    Reply × Window ρ :=
  if window.leaseIsCurrent lease then
    (.released true, window.removeLease lease.assignment.candidateIndex)
  else (.released false, window)

/-- The candidates whose lease file names the owner, in listing order. -/
def leasedBy (window : Window ρ) (ownerId : String) : List ℕ :=
  (sortedNames window.leases.keys).filter fun index =>
    (window.leases.lookup index).any (·.ownerId = ownerId)

def abandonLease (ownerId : String) (now : ℚ) (window : Window ρ)
    (index : ℕ) : Window ρ :=
  let token := ((window.leases.lookup index).map (·.token)).getD ""
  (window.removeLease index).appendEvent
    (.abandon (candidateId index) ownerId token now)

/-- Release all candidate leases held by a collector known to be dead. -/
def abandonOwnerLeases (ownerId : String) (now : ℚ) (window : Window ρ) :
    Reply × Window ρ :=
  if ownerId = "" then (.raised .ownerIdEmpty, window)
  else
    let released := window.leasedBy ownerId
    (.abandoned released, released.foldl (abandonLease ownerId now) window)

/-! ## Skipping -/

/-- The indices named by the arguments of `skip_window_candidates`. -/
def normalizeCandidateIds (maximum : ℕ) :
    List String → Except StoreError (List ℕ)
  | [] => .ok []
  | name :: rest => do
    match parseCandidateId name with
    | none => .error (.invalidCandidateId name)
    | some index =>
      require (index < maximum) (.candidateIndexOutside maximum name)
      let indices ← normalizeCandidateIds maximum rest
      .ok (index :: indices)

def markSkipped (reason : String) (now : ℚ) (window : Window ρ)
    (index : ℕ) : Window ρ :=
  { window with
    skipped := window.skipped.insert index
      { candidateId := candidateId index
        reason := reason
        skippedAtUnixS := now }
    leases := window.leases.erase index }

def skipLoop (reason : String) (now : ℚ) :
    List ℕ → Window ρ → List ℕ × Window ρ
  | [], window => ([], window)
  | index :: rest, window =>
    if window.candidateComplete index then skipLoop reason now rest window
    else
      let tail := skipLoop reason now rest
        (window.markSkipped reason now index)
      (index :: tail.1, tail.2)

/-- Mark explicitly cancelled proposals without fabricating rollout data. -/
def skipWindowCandidates (candidateIds : List String) (reason : String)
    (now : ℚ) (window : Window ρ) : Reply × Window ρ :=
  if candidateIds = [] ∨ reason = "" then
    (.raised .skipArgumentsEmpty, window)
  else
    match window.manifest with
    | none => (.raised .manifestMissing, window)
    | some manifest =>
      match normalizeCandidateIds manifest.maxCandidateGroups candidateIds with
      | .error error => (.raised error, window)
      | .ok indices =>
        if ¬indices.Nodup then (.raised .candidateIdsNotUnique, window)
        else if ¬window.isOpen then (.raised .windowClosed, window)
        else
          let skip := skipLoop reason now indices window
          (.skipped skip.1, skip.2)

/-- Record a retriable bad rollout without consuming its candidate id. -/
def recordIntegrityFailure (spec : CollectionWindowSpec)
    (assignment : CandidateAssignment) (diagnostics : String)
    (lease : Option CandidateLease) (now : ℚ) (window : Window ρ) :
    Reply × Window ρ :=
  if ∃ held ∈ lease, ¬window.leaseIsCurrent held then
    (.integrityRecorded false, window)
  else
    let ownerId := lease.map (·.ownerId)
    let failure : IntegrityFailure :=
      { candidate := assignment
        policy := spec.policy
        diagnostics := diagnostics
        ownerId := ownerId
        failedAtUnixS := now }
    let event := LeaseEvent.integrityFailure assignment.candidateId
      assignment.candidateIndex ownerId now
    (.integrityRecorded true, ({ window with
          integrityFailures := window.integrityFailures ++ [failure]
        } : Window ρ).appendEvent event)

/-! ## Committing -/

/-- Everything a collector hands to `commit_group`. -/
structure CommitRequest (ρ : Type) where
  assignment : CandidateAssignment
  rollout : List ρ
  rolloutEndObs : List ρ
  groupRecord : GroupRecord
  lease : Option CandidateLease

def publishAccepted (spec : CollectionWindowSpec) (request : CommitRequest ρ)
    (window : Window ρ) : Window ρ :=
  let index := request.assignment.candidateIndex
  { window with
    accepted := window.accepted.insert index
      { rollout := request.rollout
        rolloutEndObs := request.rolloutEndObs
        candidate := request.assignment
        policy := spec.policy
        groupRecord := request.groupRecord }
    leases := window.leases.erase index }

def publishRejected (spec : CollectionWindowSpec) (request : CommitRequest ρ)
    (window : Window ρ) : Window ρ :=
  let index := request.assignment.candidateIndex
  { window with
    rejected := window.rejected.insert index
      { candidate := request.assignment
        policy := spec.policy
        groupRecord := request.groupRecord }
    leases := window.leases.erase index }

/-- Atomically publish an accepted group, or a compact rejection record. -/
def commitGroup (spec : CollectionWindowSpec) (request : CommitRequest ρ)
    (window : Window ρ) : Reply × Window ρ :=
  let assignment := request.assignment
  if request.rollout.length ≠ spec.groupSize ∨
      request.rolloutEndObs.length ≠ spec.groupSize then
    (.raised (.wrongGroupSize assignment.candidateId spec.groupSize
      request.rollout.length request.rolloutEndObs.length), window)
  else if request.groupRecord.rolloutPolicyVersion ≠
      spec.policy.rolloutPolicyVersion then
    (.raised .wrongPolicyVersion, window)
  else if request.groupRecord.groupId ≠ assignment.candidateId then
    (.raised .wrongGroupId, window)
  else if ∃ held ∈ request.lease, held.assignment ≠ assignment then
    (.raised .leaseAssignmentMismatch, window)
  else if ∃ held ∈ request.lease, ¬window.leaseIsCurrent held then
    (.committed .staleLease, window)
  else if window.candidateComplete assignment.candidateIndex then
    (.committed .duplicate, window)
  else if window.closed.isSome then (.committed .late, window)
  else if ¬window.isOpen then (.raised .windowClosed, window)
  else if request.groupRecord.informative then
    (.committed .accepted, window.publishAccepted spec request)
  else (.committed .rejected, window.publishRejected spec request)

/-! ## Closing -/

def acceptedNames (window : Window ρ) : List ℕ :=
  sortedNames window.accepted.keys

def completedCandidateCount (window : Window ρ) : ℕ :=
  window.accepted.keys.length + window.rejected.keys.length +
    window.skipped.keys.length

/-- The set of candidate indices found in the three terminal directories. -/
def completedIds (window : Window ρ) : Finset ℕ :=
  window.accepted.keys.toFinset ∪ window.rejected.keys.toFinset ∪
    window.skipped.keys.toFinset

def budgetExhausted (spec : CollectionWindowSpec) (window : Window ρ) : Prop :=
  spec.maxCandidateGroups ≤ window.completedCandidateCount

instance (spec : CollectionWindowSpec) (window : Window ρ) :
    Decidable (window.budgetExhausted spec) :=
  inferInstanceAs (Decidable (_ ≤ _))

/-- The completed candidates form a non-empty sequence of whole rounds. -/
def completedRound (spec : CollectionWindowSpec) (window : Window ρ) : Prop :=
  window.completedIds.Nonempty ∧
    window.completedIds.card % spec.candidateRoundSize = 0 ∧
    window.completedIds = Finset.range window.completedIds.card

instance (spec : CollectionWindowSpec) (window : Window ρ) :
    Decidable (window.completedRound spec) :=
  inferInstanceAs (Decidable (_ ∧ _ ∧ _))

def targetReached (spec : CollectionWindowSpec) (window : Window ρ) : Prop :=
  spec.targetAcceptedGroups ≤ window.accepted.keys.length ∨
    window.budgetExhausted spec

instance (spec : CollectionWindowSpec) (window : Window ρ) :
    Decidable (window.targetReached spec) :=
  inferInstanceAs (Decidable (_ ∨ _))

def closeReady (spec : CollectionWindowSpec) (window : Window ρ) : Prop :=
  if spec.drainCandidateBudget then window.budgetExhausted spec
  else if spec.completeRoundAfterTarget then
    window.completedRound spec ∧ window.targetReached spec
  else window.targetReached spec

instance (spec : CollectionWindowSpec) (window : Window ρ) :
    Decidable (window.closeReady spec) := by
  unfold closeReady
  infer_instance

def closeOutcome (spec : CollectionWindowSpec) (window : Window ρ) : Outcome :=
  if window.accepted.keys.length < spec.minimumAcceptedGroups then
    .insufficientInformativeGroups
  else .ready

def selection (spec : CollectionWindowSpec) (window : Window ρ) : List ℕ :=
  match window.closeOutcome spec with
  | .insufficientInformativeGroups => []
  | .ready =>
    if spec.completeRoundAfterTarget ∨ spec.drainCandidateBudget then
      window.acceptedNames
    else window.acceptedNames.take spec.targetAcceptedGroups

def closedRecord (spec : CollectionWindowSpec) (window : Window ρ)
    (now : ℚ) : ClosedRecord where
  outcome := window.closeOutcome spec
  acceptedGroups := window.accepted.keys.length
  rejectedGroups := window.rejected.keys.length
  skippedCandidateGroups := window.skipped.keys.length
  completedCandidateGroups := window.completedCandidateCount
  completeRoundAfterTarget := spec.completeRoundAfterTarget
  candidateRoundSize := spec.candidateRoundSize
  drainCandidateBudget := spec.drainCandidateBudget
  selectedGroups := window.selection spec
  closedAtUnixS := now

/-- Close at target, optionally only after a complete balanced round. -/
def closeIfReady (spec : CollectionWindowSpec) (now : ℚ) (window : Window ρ) :
    Reply × Window ρ :=
  match window.closed with
  | some record => (.closeState (some record), window)
  | none =>
    if window.closeReady spec then
      let record := window.closedRecord spec now
      (.closeState (some record),
        { window with closed := some record, openMarker := false })
    else (.closeState none, window)

end Window

/-! ## The store as a machine -/

inductive Operation (ρ : Type)
  | claim (assignments : List CandidateAssignment) (ownerId : String)
      (leaseTimeoutSeconds : ℚ) (preferredCondition : Option (String × ℤ))
      (now : ℚ) (token : String)
  | renew (lease : CandidateLease) (leaseTimeoutSeconds now : ℚ)
  | release (lease : CandidateLease)
  | abandon (ownerId : String) (now : ℚ)
  | skip (candidateIds : List String) (reason : String) (now : ℚ)
  | recordIntegrityFailure (assignment : CandidateAssignment)
      (diagnostics : String) (lease : Option CandidateLease) (now : ℚ)
  | commit (request : Window.CommitRequest ρ)
  | closeIfReady (now : ℚ)

def Operation.apply (spec : CollectionWindowSpec) (window : Window ρ) :
    Operation ρ → Reply × Window ρ
  | .claim assignments ownerId timeout preferred now token =>
    window.claimCandidate spec assignments ownerId timeout preferred now token
  | .renew lease timeout now => window.renewCandidateLease lease timeout now
  | .release lease => window.releaseCandidateLease lease
  | .abandon ownerId now => window.abandonOwnerLeases ownerId now
  | .skip candidateIds reason now =>
    window.skipWindowCandidates candidateIds reason now
  | .recordIntegrityFailure assignment diagnostics lease now =>
    window.recordIntegrityFailure spec assignment diagnostics lease now
  | .commit request => window.commitGroup spec request
  | .closeIfReady now => window.closeIfReady spec now

/-- Any number of owners call the operations of one window in any order. -/
def store (ρ : Type) (spec : CollectionWindowSpec) :
    Transition.Machine (Window ρ) (Operation ρ) Reply where
  step window operation := some (operation.apply spec window)

abbrev StoreEvent (ρ : Type) := Transition.Event (Window ρ) (Operation ρ) Reply

abbrev StoreRun (spec : CollectionWindowSpec) :
    Window ρ → List (StoreEvent ρ) → Window ρ → Prop :=
  Transition.Run (store ρ spec)

theorem store_step_eq :
    (store ρ spec).step window operation = some (reply, next) ↔
      operation.apply spec window = (reply, next) := by
  simp [store]

theorem store_exec_isSome (spec : CollectionWindowSpec) (window : Window ρ)
    (operations : List (Operation ρ)) :
    ((store ρ spec).exec window operations).isSome := by
  induction operations generalizing window with
  | nil => rfl
  | cons operation rest ih =>
    have hrest := ih (operation.apply spec window).2
    rcases Option.isSome_iff_exists.mp hrest with ⟨run, hrun⟩
    have hstep : (store ρ spec).step window operation =
        some (operation.apply spec window) := rfl
    simp only [Transition.Machine.exec, hstep, hrun, Option.isSome_some]

def replay (spec : CollectionWindowSpec) (operations : List (Operation ρ)) :
    List (StoreEvent ρ) × Window ρ :=
  ((store ρ spec).exec (Window.initialized spec) operations).get
    (store_exec_isSome ..)

theorem replay_run (spec : CollectionWindowSpec)
    (operations : List (Operation ρ)) :
    StoreRun spec (Window.initialized spec) (replay spec operations).1
      (replay spec operations).2 := by
  apply Transition.Machine.run_of_exec
  exact (Option.some_get (store_exec_isSome ..)).symm

end CollectionStore
end VerlVla
