import VerlVla.CollectionLifecycle

/-!
# What the operations of the store do

`Operation.Effect` lists the ways in which an operation changes the terminal
directories and the markers of a window.  The facts about terminal records are
read off from it, one case per effect.
-/

namespace VerlVla
namespace CollectionStore

variable {ρ : Type}

/-! ## Terminal records -/

namespace Window

def settledAs (window : Window ρ) (index : ℕ) : Verdict → Prop
  | .accepted => index ∈ window.accepted
  | .rejected => index ∈ window.rejected
  | .skipped => index ∈ window.skipped

variable {window before after : Window ρ} {index : ℕ}

theorem candidateComplete_iff : window.candidateComplete index ↔
      ∃ verdict, window.settledAs index verdict := by
  constructor
  · intro hcomplete
    rcases hcomplete with haccepted | hrejected | hskipped
    · exact ⟨.accepted, haccepted⟩
    · exact ⟨.rejected, hrejected⟩
    · exact ⟨.skipped, hskipped⟩
  · intro hsettled
    rcases hsettled with ⟨_ | _ | _, hverdict⟩
    · exact .inl hverdict
    · exact .inr (.inl hverdict)
    · exact .inr (.inr hverdict)

/-- The candidate keeps its terminal records, or it had none and got one. -/
def SettledOnce (before after : Window ρ) (index : ℕ) : Prop :=
  (∀ verdict, after.settledAs index verdict ↔ before.settledAs index verdict) ∨
    ¬before.candidateComplete index ∧
      ∃ verdict, ∀ other, after.settledAs index other ↔ other = verdict

def Exclusive (window : Window ρ) : Prop :=
  ∀ index left right, window.settledAs index left →
    window.settledAs index right → left = right

theorem SettledOnce.refl (window : Window ρ) (index : ℕ) :
    SettledOnce window window index :=
  .inl fun _ => Iff.rfl

theorem SettledOnce.settledAs (honce : SettledOnce before after index)
    (hsettled : before.settledAs index verdict) :
    after.settledAs index verdict := by
  rcases honce with hsame | ⟨hopen, _⟩
  · exact (hsame verdict).mpr hsettled
  · exact absurd (candidateComplete_iff.mpr ⟨verdict, hsettled⟩) hopen

theorem SettledOnce.candidateComplete (honce : SettledOnce before after index)
    (hcomplete : before.candidateComplete index) :
    after.candidateComplete index := by
  rcases candidateComplete_iff.mp hcomplete with ⟨verdict, hsettled⟩
  exact candidateComplete_iff.mpr ⟨verdict, honce.settledAs hsettled⟩

theorem SettledOnce.trans (hfirst : SettledOnce before middle index)
    (hsecond : SettledOnce middle after index) :
    SettledOnce before after index := by
  rcases hsecond with hsame | ⟨hopen, hsettled⟩
  · rcases hfirst with hprior | ⟨hopen, verdict, hsettled⟩
    · exact .inl fun other => (hsame other).trans (hprior other)
    · exact .inr ⟨hopen, verdict,
        fun other => (hsame other).trans (hsettled other)⟩
  · refine .inr ⟨?_, hsettled⟩
    intro hcomplete
    exact hopen (hfirst.candidateComplete hcomplete)

theorem SettledOnce.exclusive (honce : ∀ index, SettledOnce before after index)
    (hexclusive : before.Exclusive) : after.Exclusive := by
  intro index left right hleft hright
  rcases honce index with hsame | ⟨_, verdict, hsettled⟩
  · apply hexclusive index
    · exact (hsame left).mp hleft
    · exact (hsame right).mp hright
  · rw [(hsettled left).mp hleft, (hsettled right).mp hright]

/-- Only leases, lease events and integrity failures may differ. -/
structure LeasesOnly (before after : Window ρ) : Prop where
  manifest : after.manifest = before.manifest
  openMarker : after.openMarker = before.openMarker
  closed : after.closed = before.closed
  accepted : after.accepted = before.accepted
  rejected : after.rejected = before.rejected
  skipped : after.skipped = before.skipped

theorem LeasesOnly.refl (window : Window ρ) : LeasesOnly window window := by
  constructor <;> rfl

theorem LeasesOnly.settledAs_iff (hsame : LeasesOnly before after) :
    after.settledAs index verdict ↔ before.settledAs index verdict := by
  cases verdict <;>
    simp [settledAs, hsame.accepted, hsame.rejected, hsame.skipped]

theorem LeasesOnly.settledOnce (hsame : LeasesOnly before after) (index : ℕ) :
    SettledOnce before after index :=
  .inl fun _ => hsame.settledAs_iff

theorem settledOnce_markSkipped {skipped : ℕ}
    (hopen : ¬window.candidateComplete skipped) (reason : String) (now : ℚ)
    (index : ℕ) :
    SettledOnce window (window.markSkipped reason now skipped) index := by
  by_cases hindex : index = skipped
  · subst hindex
    refine .inr ⟨hopen, .skipped, fun other => ?_⟩
    unfold candidateComplete at hopen
    cases other <;> simp_all [settledAs, markSkipped]
  · refine .inl fun verdict => ?_
    cases verdict <;> simp [settledAs, markSkipped, AList.mem_insert, hindex]

theorem settledOnce_publishAccepted (spec : CollectionWindowSpec)
    (hopen : ¬window.candidateComplete request.assignment.candidateIndex)
    (index : ℕ) :
    SettledOnce window (window.publishAccepted spec request) index := by
  by_cases hindex : index = request.assignment.candidateIndex
  · subst hindex
    refine .inr ⟨hopen, .accepted, fun other => ?_⟩
    unfold candidateComplete at hopen
    cases other <;> simp_all [settledAs, publishAccepted]
  · refine .inl fun verdict => ?_
    cases verdict <;>
      simp [settledAs, publishAccepted, AList.mem_insert, hindex]

theorem settledOnce_publishRejected (spec : CollectionWindowSpec)
    (hopen : ¬window.candidateComplete request.assignment.candidateIndex)
    (index : ℕ) :
    SettledOnce window (window.publishRejected spec request) index := by
  by_cases hindex : index = request.assignment.candidateIndex
  · subst hindex
    refine .inr ⟨hopen, .rejected, fun other => ?_⟩
    unfold candidateComplete at hopen
    cases other <;> simp_all [settledAs, publishRejected]
  · refine .inl fun verdict => ?_
    cases verdict <;>
      simp [settledAs, publishRejected, AList.mem_insert, hindex]

/-! ## What claims and commits do -/

theorem claimLoop_leasesOnly (spec : CollectionWindowSpec) (ownerId : String)
    (leaseTimeoutSeconds now : ℚ) (token : String)
    (assignments : List CandidateAssignment) (window : Window ρ) :
    LeasesOnly window (claimLoop spec ownerId leaseTimeoutSeconds now token
      assignments window).2 := by
  induction assignments generalizing window with
  | nil => exact .refl window
  | cons assignment rest ih =>
    simp only [claimLoop]
    split_ifs
    · have hrest := ih (window.removeLease assignment.candidateIndex)
      constructor
      · exact hrest.manifest
      · exact hrest.openMarker
      · exact hrest.closed
      · exact hrest.accepted
      · exact hrest.rejected
      · exact hrest.skipped
    · exact ih window
    · constructor <;> rfl
    · exact ih window

theorem abandonLoop_leasesOnly (ownerId : String) (now : ℚ)
    (indices : List ℕ) (window : Window ρ) :
    LeasesOnly window (indices.foldl (abandonLease ownerId now) window) := by
  induction indices generalizing window with
  | nil => exact .refl window
  | cons abandoned rest ih =>
    have hrest := ih (abandonLease ownerId now window abandoned)
    constructor
    · exact hrest.manifest
    · exact hrest.openMarker
    · exact hrest.closed
    · exact hrest.accepted
    · exact hrest.rejected
    · exact hrest.skipped

structure Claimable (spec : CollectionWindowSpec) (window : Window ρ)
    (ownerId token : String) (now : ℚ) (lease : CandidateLease) : Prop where
  owner : lease.ownerId = ownerId
  token : lease.token = token
  roundReady : window.roundReadyToStart spec lease.assignment.candidateIndex
  incomplete : ¬window.candidateComplete lease.assignment.candidateIndex
  available : ¬window.heldByOther ownerId now lease.assignment.candidateIndex

theorem claimLoop_claimable
    (hclaim : (claimLoop spec ownerId leaseTimeoutSeconds now token
      assignments window).1 = some lease) :
    Claimable spec window ownerId token now lease := by
  induction assignments generalizing window with
  | nil => simp [claimLoop] at hclaim
  | cons assignment rest ih =>
    simp only [claimLoop] at hclaim
    split_ifs at hclaim with hround hcomplete hheld
    · have hrest := ih hclaim
      have hincomplete : ¬window.candidateComplete
          lease.assignment.candidateIndex := hrest.incomplete
      have hne : lease.assignment.candidateIndex ≠
          assignment.candidateIndex := by
        intro heq
        rw [heq] at hincomplete
        exact hincomplete hcomplete
      refine ⟨hrest.owner, hrest.token, hrest.roundReady, hincomplete, ?_⟩
      have havailable := hrest.available
      simp only [heldByOther, removeLease,
        AList.lookup_erase_ne hne] at havailable
      exact havailable
    · exact ih hclaim
    · simp only [Option.some.injEq] at hclaim
      subst hclaim
      exact ⟨rfl, rfl, by simpa using hround, hcomplete, hheld⟩
    · exact ih hclaim

theorem skipLoop_settledOnce (reason : String) (now : ℚ)
    (indices : List ℕ) (window : Window ρ) (index : ℕ) :
    SettledOnce window (skipLoop reason now indices window).2 index := by
  induction indices generalizing window with
  | nil => exact .refl window index
  | cons skipped rest ih =>
    simp only [skipLoop]
    split_ifs with hcomplete
    · exact ih window
    · have hmark := settledOnce_markSkipped hcomplete reason now index
      exact hmark.trans (ih _)

theorem skipLoop_names
    (hskipped : index ∈ (skipLoop reason now indices window).1) :
    (skipLoop reason now indices window).2.candidateComplete index := by
  induction indices generalizing window with
  | nil => simp [skipLoop] at hskipped
  | cons skipped rest ih =>
    simp only [skipLoop] at hskipped ⊢
    split_ifs at hskipped ⊢ with hcomplete
    · exact ih hskipped
    · rcases List.mem_cons.mp hskipped with rfl | hrest
      · have honce := skipLoop_settledOnce reason now rest
          (window.markSkipped reason now index) index
        apply honce.candidateComplete
        exact .inr (.inr (by simp [markSkipped]))
      · exact ih hrest

theorem skipLoop_frame (reason : String) (now : ℚ) (indices : List ℕ)
    (window : Window ρ) :
    let after := (skipLoop reason now indices window).2
    after.manifest = window.manifest ∧ after.openMarker = window.openMarker ∧
      after.closed = window.closed ∧ after.accepted = window.accepted ∧
      after.rejected = window.rejected := by
  induction indices generalizing window with
  | nil => simp [skipLoop]
  | cons skipped rest ih =>
    simp only [skipLoop]
    split_ifs
    · exact ih window
    · exact ih (window.markSkipped reason now skipped)

theorem abandonLoop_lookup {indices : List ℕ}
    (hmem : index ∈ indices ∨ window.leases.lookup index = none) :
    (indices.foldl (abandonLease ownerId now) window).leases.lookup index =
      none := by
  induction indices generalizing window with
  | nil => simpa using hmem
  | cons abandoned rest ih =>
    apply ih
    by_cases hindex : index = abandoned
    · subst hindex
      right
      simp [abandonLease, removeLease, appendEvent]
    · rcases hmem with hmem | hnone
      · left
        exact (List.mem_cons.mp hmem).resolve_left hindex
      · right
        simpa [abandonLease, removeLease, appendEvent,
          AList.lookup_erase_ne hindex] using hnone

theorem status_ne_leased_of_lookup
    (hnone : window.leases.lookup index = none) (ticket : Ticket) :
    window.status index ≠ .leased ticket := by
  intro hstatus
  rcases (status_eq_leased_iff.mp hstatus).2 with ⟨lease, hlease, _⟩
  simp [hnone] at hlease

theorem status_ne_leased_of_complete
    (hcomplete : window.candidateComplete index) (ticket : Ticket) :
    window.status index ≠ .leased ticket := by
  intro hstatus
  exact (status_eq_leased_iff.mp hstatus).1 hcomplete

theorem claimLoop_status
    (hclaim : (claimLoop spec ownerId leaseTimeoutSeconds now token
      assignments window).1 = some lease) :
    (claimLoop spec ownerId leaseTimeoutSeconds now token assignments
        window).2.status lease.assignment.candidateIndex =
      .leased lease.ticket := by
  induction assignments generalizing window with
  | nil => simp [claimLoop] at hclaim
  | cons assignment rest ih =>
    simp only [claimLoop] at hclaim ⊢
    split_ifs at hclaim ⊢ with hround hcomplete hheld
    · exact ih hclaim
    · exact ih hclaim
    · simp only [Option.some.injEq] at hclaim
      subst hclaim
      rw [status_appendEvent]
      exact status_writeLease hcomplete
    · exact ih hclaim

end Window

def Reply.published : Reply → Bool
  | .committed .accepted => true
  | .committed .rejected => true
  | _ => false

structure Window.Publishable (window : Window ρ)
    (request : Window.CommitRequest ρ) : Prop where
  leaseAssignment :
    ∀ held ∈ request.lease, held.assignment = request.assignment
  leaseCurrent : ∀ held ∈ request.lease, window.leaseIsCurrent held
  incomplete : ¬window.candidateComplete request.assignment.candidateIndex
  windowOpen : window.isOpen

/-! ## The effect of an operation -/

inductive Operation.Effect (spec : CollectionWindowSpec) (before : Window ρ) :
    Operation ρ → Reply → Window ρ → Prop
  | leases {operation : Operation ρ} {reply : Reply} {after : Window ρ}
      (hsame : before.LeasesOnly after) (hquiet : reply.published = false) :
      Effect spec before operation reply after
  | skipped {candidateIds : List String} {reason : String} {now : ℚ}
      {manifest : StoredManifest} {indices : List ℕ}
      (hmanifest : before.manifest = some manifest)
      (hnames : Window.normalizeCandidateIds manifest.maxCandidateGroups
        candidateIds = .ok indices)
      (hnodup : indices.Nodup) (hopen : before.isOpen) :
      Effect spec before (.skip candidateIds reason now)
        (.skipped (Window.skipLoop reason now indices before).1)
        (Window.skipLoop reason now indices before).2
  | accepted {request : Window.CommitRequest ρ}
      (hguards : before.Publishable request)
      (hinformative : request.groupRecord.informative = true) :
      Effect spec before (.commit request) (.committed .accepted)
        (before.publishAccepted spec request)
  | rejected {request : Window.CommitRequest ρ}
      (hguards : before.Publishable request)
      (hinformative : request.groupRecord.informative = false) :
      Effect spec before (.commit request) (.committed .rejected)
        (before.publishRejected spec request)
  | closed {now : ℚ} (hnone : before.closed = none)
      (hready : before.closeReady spec) :
      Effect spec before (.closeIfReady now)
        (.closeState (some (before.closedRecord spec now)))
        { before with
          closed := some (before.closedRecord spec now)
          openMarker := false }

theorem Operation.apply_effect (spec : CollectionWindowSpec)
    (window : Window ρ) (operation : Operation ρ) :
    Operation.Effect spec window operation (operation.apply spec window).1
      (operation.apply spec window).2 := by
  cases operation with
  | claim assignments ownerId timeout preferred now token =>
    simp only [apply, Window.claimCandidate]
    split_ifs
    all_goals try exact .leases (.refl window) rfl
    exact .leases (window.claimLoop_leasesOnly ..) rfl
  | renew lease timeout now =>
    simp only [apply, Window.renewCandidateLease]
    split_ifs
    all_goals exact .leases (by constructor <;> rfl) rfl
  | release lease =>
    simp only [apply, Window.releaseCandidateLease]
    split_ifs
    all_goals exact .leases (by constructor <;> rfl) rfl
  | abandon ownerId now =>
    simp only [apply, Window.abandonOwnerLeases]
    split_ifs
    · exact .leases (.refl window) rfl
    · exact .leases (window.abandonLoop_leasesOnly ..) rfl
  | skip candidateIds reason now =>
    simp only [apply, Window.skipWindowCandidates]
    by_cases hempty : candidateIds = [] ∨ reason = ""
    · simp only [hempty, if_true]
      exact .leases (.refl window) rfl
    simp only [hempty, if_false]
    cases hmanifest : window.manifest with
    | none => exact .leases (.refl window) rfl
    | some manifest =>
      cases hnames : Window.normalizeCandidateIds
          manifest.maxCandidateGroups candidateIds with
      | error error =>
        simp only [hnames]
        exact .leases (.refl window) rfl
      | ok indices =>
        simp only [hnames]
        split_ifs with hnodup hopen
        · exact .skipped hmanifest hnames hnodup hopen
        · exact .leases (.refl window) rfl
        · exact .leases (.refl window) rfl
  | recordIntegrityFailure assignment diagnostics lease now =>
    simp only [apply, Window.recordIntegrityFailure]
    split_ifs
    all_goals exact .leases (by constructor <;> rfl) rfl
  | commit request =>
    simp only [apply, Window.commitGroup]
    split_ifs with _ _ _ hassignment hcurrent hincomplete _ hopen hinformative
    all_goals try exact .leases (.refl window) rfl
    all_goals
      push Not at hassignment hcurrent
      have hguards : window.Publishable request :=
        ⟨hassignment, hcurrent, hincomplete, hopen⟩
    · exact .accepted hguards hinformative
    · exact .rejected hguards (by simpa using hinformative)
  | closeIfReady now =>
    simp only [apply, Window.closeIfReady]
    cases hclosed : window.closed with
    | some record => exact .leases (.refl window) rfl
    | none =>
      by_cases hready : window.closeReady spec
      · simp only [hready, if_true]
        exact .closed hclosed hready
      · simp only [hready, if_false]
        exact .leases (.refl window) rfl

variable {spec : CollectionWindowSpec} {before after window : Window ρ}
  {operation : Operation ρ} {reply : Reply}

theorem Operation.Effect.settledOnce
    (heffect : Operation.Effect spec before operation reply after)
    (index : ℕ) : before.SettledOnce after index := by
  cases heffect with
  | leases hsame _ => exact hsame.settledOnce index
  | skipped _ _ _ _ => exact Window.skipLoop_settledOnce ..
  | accepted hguards _ =>
    exact Window.settledOnce_publishAccepted spec hguards.incomplete index
  | rejected hguards _ =>
    exact Window.settledOnce_publishRejected spec hguards.incomplete index
  | closed _ _ => exact .inl fun verdict => by cases verdict <;> rfl

theorem Operation.Effect.of_apply
    (hstep : operation.apply spec before = (reply, after)) :
    Operation.Effect spec before operation reply after := by
  have heffect := operation.apply_effect spec before
  rwa [hstep] at heffect

section

variable (heffect : Operation.Effect spec before operation reply after)

include heffect

theorem Operation.Effect.commit_inv (hpublished : reply.published = true) :
    ∃ request, operation = .commit request ∧ before.Publishable request ∧
      after.candidateComplete request.assignment.candidateIndex := by
  cases heffect with
  | leases _ hquiet => simp [hquiet] at hpublished
  | skipped _ _ _ _ => simp [Reply.published] at hpublished
  | @accepted request hguards _ =>
    refine ⟨request, rfl, hguards, .inl ?_⟩
    simp [Window.publishAccepted]
  | @rejected request hguards _ =>
    refine ⟨request, rfl, hguards, .inr (.inl ?_)⟩
    simp [Window.publishRejected]
  | closed _ _ => simp [Reply.published] at hpublished

theorem Operation.Effect.manifest : after.manifest = before.manifest := by
  cases heffect with
  | leases hsame _ => exact hsame.manifest
  | skipped _ _ _ _ => exact (Window.skipLoop_frame ..).1
  | accepted _ _ | rejected _ _ | closed _ _ => rfl

theorem Operation.Effect.markers :
    after.openMarker = before.openMarker ∧ after.closed = before.closed ∨
      before.closeReady spec ∧ after.closed.isSome := by
  cases heffect with
  | leases hsame _ => exact .inl ⟨hsame.openMarker, hsame.closed⟩
  | @skipped _ reason now _ indices _ _ _ _ =>
    have hframe := before.skipLoop_frame reason now indices
    exact .inl ⟨hframe.2.1, hframe.2.2.1⟩
  | accepted _ _ | rejected _ _ => exact .inl ⟨rfl, rfl⟩
  | closed _ hready => exact .inr ⟨hready, rfl⟩

theorem Operation.Effect.complete_iff_of_not_open
    (hclosed : ¬before.isOpen) (index : ℕ) :
    after.candidateComplete index ↔ before.candidateComplete index := by
  cases heffect with
  | leases hsame _ =>
    simp only [Window.candidateComplete_iff, hsame.settledAs_iff]
  | skipped _ _ _ hopen => exact absurd hopen hclosed
  | accepted hguards _ | rejected hguards _ =>
    exact absurd hguards.windowOpen hclosed
  | closed _ _ => exact Iff.rfl

end

theorem Window.keys_eq_nil_of_empty
    (hempty : ∀ index, ¬window.candidateComplete index) :
    window.accepted.keys = [] ∧ window.rejected.keys = [] ∧
      window.skipped.keys = [] := by
  simp only [candidateComplete, not_or] at hempty
  refine ⟨?_, ?_, ?_⟩
  · apply List.eq_nil_iff_forall_not_mem.mpr
    exact fun index => (hempty index).1
  · apply List.eq_nil_iff_forall_not_mem.mpr
    exact fun index => (hempty index).2.1
  · apply List.eq_nil_iff_forall_not_mem.mpr
    exact fun index => (hempty index).2.2

theorem Window.not_closeReady_of_empty (spec : CollectionWindowSpec) (hempty : ∀ index, ¬window.candidateComplete index) :
    ¬window.closeReady spec := by
  have hkeys := keys_eq_nil_of_empty hempty
  have hbounds := spec.bounds
  have hminimum := hbounds.one_le_minimum
  have htarget := hbounds.minimum_le_target
  have hmax := hbounds.target_le_max
  have hbudget : ¬window.budgetExhausted spec := by
    simp only [budgetExhausted, completedCandidateCount, hkeys,
      List.length_nil]
    omega
  have hreached : ¬window.targetReached spec := by
    simp only [targetReached, hkeys, List.length_nil, hbudget, or_false]
    omega
  unfold closeReady
  split_ifs
  · exact hbudget
  · exact fun hready => hreached hready.2
  · exact hreached

def Operation.Answers : Operation ρ → Reply → Prop
  | .claim .., .claimed _ => True
  | .renew .., .renewed _ => True
  | .release _, .released _ => True
  | .abandon .., .abandoned _ => True
  | .skip .., .skipped _ => True
  | .recordIntegrityFailure .., .integrityRecorded _ => True
  | .commit _, .committed _ => True
  | .closeIfReady _, .closeState _ => True
  | _, .raised _ => True
  | _, _ => False

theorem Operation.apply_answers (spec : CollectionWindowSpec)
    (window : Window ρ) (operation : Operation ρ) :
    operation.Answers (operation.apply spec window).1 := by
  cases operation with
  | claim assignments ownerId timeout preferred now token =>
    simp only [apply, Window.claimCandidate]
    split_ifs <;> trivial
  | renew lease timeout now =>
    simp only [apply, Window.renewCandidateLease]
    split_ifs <;> trivial
  | release lease =>
    simp only [apply, Window.releaseCandidateLease]
    split_ifs <;> trivial
  | abandon ownerId now =>
    simp only [apply, Window.abandonOwnerLeases]
    split_ifs <;> trivial
  | skip candidateIds reason now =>
    simp only [apply, Window.skipWindowCandidates]
    repeat' split
    all_goals trivial
  | recordIntegrityFailure assignment diagnostics lease now =>
    simp only [apply, Window.recordIntegrityFailure]
    split_ifs <;> trivial
  | commit request =>
    simp only [apply, Window.commitGroup]
    split_ifs <;> trivial
  | closeIfReady now =>
    simp only [apply, Window.closeIfReady]
    repeat' split
    all_goals trivial

theorem Operation.claimed_inv
    (hstep : operation.apply spec window = (.claimed (some lease), next)) :
    ∃ assignments ownerId timeout preferred now token,
      operation = .claim assignments ownerId timeout preferred now token ∧
      window.isOpen ∧
      Window.claimLoop spec ownerId timeout now token
        (Window.claimOrder assignments preferred) window =
          (some lease, next) := by
  have hanswers := operation.apply_answers spec window
  rw [hstep] at hanswers
  cases operation with
  | claim assignments ownerId timeout preferred now token =>
    refine ⟨_, _, _, _, _, _, rfl, ?_⟩
    simp only [apply, Window.claimCandidate] at hstep
    split_ifs at hstep with _ _ _ _ hopen
    all_goals simp only [Prod.mk.injEq, Reply.claimed.injEq,
      reduceCtorEq, false_and] at hstep
    exact ⟨hopen, Prod.ext hstep.1 hstep.2⟩
  | _ => exact hanswers.elim

theorem Operation.released_inv
    (hstep : (Operation.release lease).apply spec window =
      (.released true, next)) :
    next = window.removeLease lease.assignment.candidateIndex := by
  simp only [apply, Window.releaseCandidateLease] at hstep
  split_ifs at hstep with hcurrent
  · exact (congrArg Prod.snd hstep).symm
  · simp at hstep

theorem Operation.abandoned_inv
    (hstep : operation.apply spec window = (.abandoned candidates, next)) :
    ∃ ownerId now,
      next = candidates.foldl (Window.abandonLease ownerId now) window := by
  have hanswers := operation.apply_answers spec window
  rw [hstep] at hanswers
  cases operation with
  | abandon ownerId now =>
    refine ⟨ownerId, now, ?_⟩
    simp only [apply, Window.abandonOwnerLeases] at hstep
    split_ifs at hstep with howner
    · simp at hstep
    · simp only [Prod.mk.injEq, Reply.abandoned.injEq] at hstep
      rw [← hstep.1, ← hstep.2]
  | _ => exact hanswers.elim

theorem Operation.skipped_inv
    (hstep : operation.apply spec window = (.skipped candidates, next)) :
    ∃ reason now indices,
      Window.skipLoop reason now indices window = (candidates, next) := by
  have hanswers := operation.apply_answers spec window
  rw [hstep] at hanswers
  cases operation with
  | skip candidateIds reason now =>
    refine ⟨reason, now, ?_⟩
    simp only [apply, Window.skipWindowCandidates] at hstep
    repeat' split at hstep
    all_goals simp only [Prod.mk.injEq, Reply.skipped.injEq,
      reduceCtorEq, false_and] at hstep
    exact ⟨_, Prod.ext hstep.1 hstep.2⟩
  | _ => exact hanswers.elim

end CollectionStore
end VerlVla
