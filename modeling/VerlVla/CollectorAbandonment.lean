import VerlVla.CollectionSafety

/-!
# Abandoned collectors

A watcher that cancels a collector releases the leases of the owner it takes
the collector for.  A collector of one process claims under that name.  With
several simulators every simulator process claims under a name of its own.
-/

namespace VerlVla

open List hiding after cons nil
namespace CollectionStore

open Transition

variable {ρ : Type}

/-! ## Owners -/

def decimal (number : ℕ) : String := String.ofList (Nat.toDigits 10 number)

structure CollectorProcess where
  slurmArrayJobId : Option String
  slurmJobId : Option String
  slurmArrayTaskId : Option String
  collectorSlot : String
  pid : String

def collectorOwnerId (process : CollectorProcess) : String :=
  let arrayJob := process.slurmArrayJobId.or process.slurmJobId
  let arrayTask := process.slurmArrayTaskId.getD process.collectorSlot
  match arrayJob with
  | none => "local:" ++ arrayTask ++ ":" ++ process.pid
  | some job => job ++ ":" ++ arrayTask

structure Collector where
  job : ℕ
  lane : ℕ
  simulatorsPerGpu : ℕ

namespace Collector

variable (collector : Collector)

/-- The processes of an array element, whatever else they read. -/
def process (slurmJobId : Option String) (collectorSlot pid : String) :
    CollectorProcess where
  slurmArrayJobId := some (decimal collector.job)
  slurmJobId := slurmJobId
  slurmArrayTaskId := some (decimal collector.lane)
  collectorSlot := collectorSlot
  pid := pid

def ownerId : String := decimal collector.job ++ ":" ++ decimal collector.lane

def simulatorOwnerId (worker : ℕ) : String :=
  collector.ownerId ++ ":sim" ++ decimal worker

def owners : List String := if 1 < collector.simulatorsPerGpu then
    (range collector.simulatorsPerGpu).map collector.simulatorOwnerId
  else [collector.ownerId]

theorem collectorOwnerId_process (slurmJobId : Option String)
    (collectorSlot pid : String) :
    collectorOwnerId (collector.process slurmJobId collectorSlot pid) =
      collector.ownerId := rfl

def namedElement (name : List Char) : List Char × List Char :=
  let job := name.takeWhile Char.isDigit
  (job, (name.drop (job.length + 1)).takeWhile Char.isDigit)

variable {collector}

theorem takeWhile_toDigits (number : ℕ)
    (hrest : rest.takeWhile Char.isDigit = []) :
    (Nat.toDigits 10 number ++ rest).takeWhile Char.isDigit =
      Nat.toDigits 10 number := by
  rw [takeWhile_append_of_pos, hrest, append_nil]
  intro digit hdigit
  exact Nat.isDigit_of_mem_toDigits (by decide) (by decide) hdigit

theorem namedElement_owner {rest : List Char}
    (hrest : rest.takeWhile Char.isDigit = []) :
    namedElement (collector.ownerId.toList ++ rest) =
      (Nat.toDigits 10 collector.job, Nat.toDigits 10 collector.lane) := by
  have htext : collector.ownerId.toList ++ rest =
      Nat.toDigits 10 collector.job ++
        (':' :: (Nat.toDigits 10 collector.lane ++ rest)) := by
    simp [ownerId, decimal]
  have hjob : (collector.ownerId.toList ++ rest).takeWhile Char.isDigit =
      Nat.toDigits 10 collector.job := by
    rw [htext]
    exact takeWhile_toDigits _ rfl
  have hdrop : (collector.ownerId.toList ++ rest).drop
      ((Nat.toDigits 10 collector.job).length + 1) =
        Nat.toDigits 10 collector.lane ++ rest := by
    rw [htext, ← drop_drop, drop_left]
    rfl
  unfold namedElement
  simp only [hjob, hdrop, takeWhile_toDigits _ hrest]

theorem ne_ownerId_simulatorOwnerId (worker : ℕ) :
    collector.simulatorOwnerId worker ≠ collector.ownerId := by
  intro hname
  have hlength := congrArg String.length hname
  have hsuffix : ":sim".length = 4 := rfl
  simp only [simulatorOwnerId, String.length_append, hsuffix] at hlength
  omega

theorem namedElement_of_mem_owners (howner : owner ∈ collector.owners) :
    namedElement owner.toList =
      (Nat.toDigits 10 collector.job, Nat.toDigits 10 collector.lane) := by
  unfold owners at howner
  split_ifs at howner
  · obtain ⟨worker, -, rfl⟩ := mem_map.mp howner
    have htext : (collector.simulatorOwnerId worker).toList =
        collector.ownerId.toList ++
          (':' :: 's' :: 'i' :: 'm' :: Nat.toDigits 10 worker) := by
      simp [simulatorOwnerId, decimal]
    rw [htext]
    exact namedElement_owner rfl
  · have hsame := @namedElement_owner collector [] rfl
    rw [append_nil] at hsame
    rw [mem_singleton.mp howner]
    exact hsame

theorem toDigits_injective : Function.Injective (Nat.toDigits 10) := by
  intro left right hdigits
  have hread := congrArg (Nat.ofDigitChars 10 · 0) hdigits
  simpa using hread

theorem owners_disjoint {other : Collector} (howner : owner ∈ collector.owners)
    (hother : owner ∈ other.owners) :
    other.job = collector.job ∧ other.lane = collector.lane := by
  have hname := namedElement_of_mem_owners howner
  rw [namedElement_of_mem_owners hother] at hname
  obtain ⟨hjob, hlane⟩ := Prod.mk.inj hname
  exact ⟨toDigits_injective hjob, toDigits_injective hlane⟩

theorem owners_disjoint_second_worker :
    "7:1:sim1" ∈ (⟨7, 1, 4⟩ : Collector).owners ∧
      (⟨7, 1, 2⟩ : Collector).job = 7 ∧
        (⟨7, 1, 2⟩ : Collector).lane = 1 := by
  have hfour : "7:1:sim1" ∈ (⟨7, 1, 4⟩ : Collector).owners := by decide
  have htwo : "7:1:sim1" ∈ (⟨7, 1, 2⟩ : Collector).owners := by decide
  exact ⟨hfour, owners_disjoint hfour htwo⟩

end Collector

/-! ## What an operation does to the owners of leases -/

namespace Window

variable {index : ℕ} {lease : CandidateLease}

theorem lookup_of_erase {leases : Directory CandidateLease}
    (hlease : (leases.erase removed).lookup index = some lease) :
    leases.lookup index = some lease := by
  by_cases hindex : index = removed
  · rw [hindex, AList.lookup_erase] at hlease
    cases hlease
  · rw [AList.lookup_erase_ne hindex] at hlease
    exact hlease

theorem claimLoop_lookup
    (hlease : (claimLoop spec ownerId leaseTimeoutSeconds now token
      assignments window).2.leases.lookup index = some lease) :
    window.leases.lookup index = some lease ∨ lease.ownerId = ownerId := by
  induction assignments generalizing window with
  | nil => exact .inl hlease
  | cons assignment rest ih =>
    simp only [claimLoop] at hlease
    split_ifs at hlease
    · cases ih hlease with
      | inl hremoved => exact .inl (lookup_of_erase hremoved)
      | inr howner => exact .inr howner
    · exact ih hlease
    · by_cases hindex : index = assignment.candidateIndex
      · subst hindex
        simp only [appendEvent, writeLease, AList.lookup_insert,
          Option.some.injEq] at hlease
        exact .inr (congrArg CandidateLease.ownerId hlease.symm)
      · simp only [appendEvent, writeLease,
          AList.lookup_insert_ne hindex] at hlease
        exact .inl hlease
    · exact ih hlease

theorem skipLoop_lookup
    (hlease : (skipLoop reason now indices window).2.leases.lookup index =
      some lease) :
    window.leases.lookup index = some lease := by
  induction indices generalizing window with
  | nil => exact hlease
  | cons skipped rest ih =>
    simp only [skipLoop] at hlease
    split_ifs at hlease
    · exact ih hlease
    · exact lookup_of_erase (ih hlease)

theorem abandonLoop_lookup_of_mem {indices : List ℕ} {window : Window ρ}
    (hlease : (indices.foldl (abandonLease ownerId now)
      window).leases.lookup index = some lease) :
    window.leases.lookup index = some lease := by
  induction indices generalizing window with
  | nil => exact hlease
  | cons abandoned rest ih => exact lookup_of_erase (ih hlease)

theorem abandonLoop_lookup_of_notMem {indices : List ℕ} {window : Window ρ}
    (hindex : index ∉ indices) :
    (indices.foldl (abandonLease ownerId now) window).leases.lookup index =
      window.leases.lookup index := by
  induction indices generalizing window with
  | nil => rfl
  | cons abandoned rest ih =>
    have hne : index ≠ abandoned := by
      intro heq
      exact hindex (heq ▸ mem_cons_self)
    rw [foldl_cons, ih fun hrest =>
      hindex (mem_cons_of_mem _ hrest)]
    exact AList.lookup_erase_ne hne

theorem mem_leasedBy {window : Window ρ} : index ∈ window.leasedBy ownerId ↔
      ∃ lease, window.leases.lookup index = some lease ∧
        lease.ownerId = ownerId := by
  unfold leasedBy
  rw [mem_filter, mem_sortedNames, Option.any_eq_true]
  constructor
  · rintro ⟨-, lease, hlease, howner⟩
    exact ⟨lease, hlease, of_decide_eq_true howner⟩
  · rintro ⟨lease, hlease, howner⟩
    have hmem : index ∈ window.leases := by
      rw [← AList.lookup_isSome, hlease]
      rfl
    exact ⟨AList.mem_keys.mp hmem, lease, hlease, decide_eq_true howner⟩

end Window

def Operation.ClaimsFor (owners : List String) : Operation ρ → Prop
  | .claim _ ownerId _ _ _ _ => ownerId ∈ owners
  | _ => False

def Operation.CommitsOrRenewsFor (owners : List String) : Operation ρ → Prop
  | .renew lease _ _ => lease.ownerId ∈ owners
  | .commit request => ∃ lease, request.lease = some lease ∧
      lease.ownerId ∈ owners
  | _ => False

def Window.Unheld (owners : List String) (window : Window ρ) : Prop :=
  ∀ index lease, window.leases.lookup index = some lease →
    lease.ownerId ∉ owners

/-- A lease that an operation leaves was there under its owner, or was
claimed. -/
theorem Operation.owner_of_apply (operation : Operation ρ)
    (hlease : (operation.apply spec window).2.leases.lookup index =
      some lease) :
    (∃ earlier, window.leases.lookup index = some earlier ∧
        earlier.ownerId = lease.ownerId) ∨
      operation.ClaimsFor [lease.ownerId] := by
  have hkept : window.leases.lookup index = some lease →
      ∃ earlier, window.leases.lookup index = some earlier ∧
        earlier.ownerId = lease.ownerId :=
    fun hsame => ⟨lease, hsame, rfl⟩
  cases operation with
  | claim assignments ownerId timeout preferred now token =>
    simp only [apply, Window.claimCandidate] at hlease
    split_ifs at hlease
    all_goals try exact .inl (hkept hlease)
    cases Window.claimLoop_lookup hlease with
    | inl hsame => exact .inl (hkept hsame)
    | inr howner =>
      exact .inr (mem_singleton.mpr howner.symm)
  | renew renewing timeout now =>
    simp only [apply, Window.renewCandidateLease] at hlease
    split_ifs at hlease with _ _ hcurrent
    all_goals try exact .inl (hkept hlease)
    by_cases hindex : index = renewing.assignment.candidateIndex
    · subst hindex
      simp only [Window.writeLease, AList.lookup_insert,
        Option.some.injEq] at hlease
      obtain ⟨current, hthere, -, howner⟩ := hcurrent
      have hrenewed : renewing.ownerId = lease.ownerId := by
        rw [← hlease]
      exact .inl ⟨current, hthere, howner.trans hrenewed⟩
    · simp only [Window.writeLease, AList.lookup_insert_ne hindex] at hlease
      exact .inl (hkept hlease)
  | release releasing =>
    simp only [apply, Window.releaseCandidateLease] at hlease
    split_ifs at hlease
    · exact .inl (hkept (Window.lookup_of_erase hlease))
    · exact .inl (hkept hlease)
  | abandon ownerId now =>
    simp only [apply, Window.abandonOwnerLeases] at hlease
    split_ifs at hlease
    · exact .inl (hkept hlease)
    · exact .inl (hkept (Window.abandonLoop_lookup_of_mem hlease))
  | skip candidateIds reason now =>
    simp only [apply, Window.skipWindowCandidates] at hlease
    split at hlease
    · exact .inl (hkept hlease)
    split at hlease
    · exact .inl (hkept hlease)
    split at hlease
    · exact .inl (hkept hlease)
    split_ifs at hlease
    · exact .inl (hkept (Window.skipLoop_lookup hlease))
    · exact .inl (hkept hlease)
    · exact .inl (hkept hlease)
  | recordIntegrityFailure assignment diagnostics held now =>
    simp only [apply, Window.recordIntegrityFailure] at hlease
    split_ifs at hlease
    · exact .inl (hkept hlease)
    · exact .inl (hkept hlease)
  | commit request =>
    simp only [apply, Window.commitGroup] at hlease
    split_ifs at hlease
    all_goals try exact .inl (hkept hlease)
    · exact .inl (hkept (Window.lookup_of_erase hlease))
    · exact .inl (hkept (Window.lookup_of_erase hlease))
  | closeIfReady now =>
    simp only [apply, Window.closeIfReady] at hlease
    split at hlease
    · exact .inl (hkept hlease)
    · split_ifs at hlease
      · exact .inl (hkept hlease)
      · exact .inl (hkept hlease)

theorem Operation.unheld_apply (spec : CollectionWindowSpec)
    {window : Window ρ} {operation : Operation ρ}
    (hunheld : window.Unheld owners) (hclaim : ¬ operation.ClaimsFor owners) :
    (operation.apply spec window).2.Unheld owners := by
  intro index lease hlease howner
  cases operation.owner_of_apply hlease with
  | inl hearlier =>
    obtain ⟨earlier, hthere, hsame⟩ := hearlier
    exact hunheld index earlier hthere (hsame ▸ howner)
  | inr hclaimed =>
    apply hclaim
    cases operation with
    | claim assignments ownerId timeout preferred now token =>
      have hsame : ownerId = lease.ownerId := mem_singleton.mp hclaimed
      show ownerId ∈ owners
      rw [hsame]
      exact howner
    | _ => exact hclaimed.elim

theorem Window.Unheld.not_leaseIsCurrent {window : Window ρ} (hunheld : window.Unheld owners)
    {lease : CandidateLease} (howner : lease.ownerId ∈ owners) :
    ¬ window.leaseIsCurrent lease := by
  rintro ⟨current, hthere, -, hsame⟩
  exact hunheld _ current hthere (hsame ▸ howner)

theorem Operation.apply_of_unheld (spec : CollectionWindowSpec)
    {window : Window ρ} {operation : Operation ρ}
    (hunheld : window.Unheld owners)
    (hlate : operation.CommitsOrRenewsFor owners) :
    (operation.apply spec window).2 = window := by
  cases operation with
  | renew lease timeout now =>
    have hcurrent := hunheld.not_leaseIsCurrent hlate
    simp only [apply, Window.renewCandidateLease]
    split_ifs
    all_goals rfl
  | commit request =>
    obtain ⟨lease, hlease, howner⟩ := hlate
    have hstale : ∃ held ∈ request.lease, ¬ window.leaseIsCurrent held :=
      ⟨lease, hlease, hunheld.not_leaseIsCurrent howner⟩
    simp only [apply, Window.commitGroup]
    split_ifs
    all_goals rfl
  | _ => exact hlate.elim

/-- After owners hold nothing, their late commits and renewals change nothing
until they claim again. -/
theorem StoreRun.fenced {start final : Window ρ}
    (hrun : StoreRun spec start events final) (hunheld : start.Unheld owners)
    (hclaims : ∀ event ∈ events, ¬ event.label.ClaimsFor owners)
    {event : StoreEvent ρ} (hevent : event ∈ events)
    (hlate : event.label.CommitsOrRenewsFor owners) :
    event.after = event.before := by
  have hbefore : event.before.Unheld owners := Run.guarded_invariant_before
      (fun _ operation => ¬ operation.ClaimsFor owners)
      (fun window => window.Unheld owners)
      (fun window operation reply next hwindow hclaim hstep => by
        have happly := Operation.unheld_apply spec hwindow hclaim
        rw [store_step_eq.mp hstep] at happly
        exact happly)
      hrun hclaims hunheld hevent
  have hstep := store_step_eq.mp (hrun.step_of_mem hevent)
  have hsame := Operation.apply_of_unheld spec hbefore hlate
  rw [hstep] at hsame
  exact hsame

/-! ## Watchers -/

/-- The watcher of a window, which abandons nothing where its queue is not
shared, and the watcher of opportunistic collectors. -/
inductive Watcher
  | window (sharedCandidateQueue : Bool)
  | opportunistic

def Watcher.abandons : Watcher → Bool
  | .window sharedCandidateQueue => sharedCandidateQueue
  | .opportunistic => true

/-- Release the leases of the element `job_lane` once it is cancelled. -/
def Watcher.abandonCollectorLeases (watcher : Watcher) (job lane : ℕ)
    (now : ℚ) (window : Window ρ) : Window ρ :=
  if watcher.abandons then
    (window.abandonOwnerLeases (decimal job ++ ":" ++ decimal lane) now).2
  else window

structure Freed (spec : CollectionWindowSpec) (cancelled : Collector)
    (before after : Window ρ) : Prop where
  released : after.Unheld cancelled.owners
  claimable : ∀ index lease, before.leases.lookup index = some lease →
    lease.ownerId ∈ cancelled.owners → ¬ before.candidateComplete index →
    before.isOpen → before.roundReadyToStart spec index →
    ∀ assignment owner timeout now token,
      assignment.candidateIndex = index → owner ≠ "" → 0 < timeout →
      ∃ claimed, (after.claimCandidate spec [assignment] owner timeout none
          now token).1 = .claimed (some claimed) ∧
        claimed.ownerId = owner ∧ claimed.assignment = assignment
  others : ∀ other : Collector,
    (other.job ≠ cancelled.job ∨ other.lane ≠ cancelled.lane) →
    ∀ index lease, lease.ownerId ∈ other.owners →
      (after.leases.lookup index = some lease ↔
        before.leases.lookup index = some lease)
  rest : before.LeasesOnly after
  fenced : ∀ events final, StoreRun spec after events final →
    (∀ event ∈ events, ¬ event.label.ClaimsFor cancelled.owners) →
    ∀ event ∈ events, event.label.CommitsOrRenewsFor cancelled.owners →
      event.after = event.before

/-- Every lease of the collector is held by its one process, and the watcher
releases it. -/
def WatchedAlone (watcher : Watcher) (cancelled : Collector)
    (window : Window ρ) : Prop :=
  window.Unheld cancelled.owners ∨
    (cancelled.simulatorsPerGpu ≤ 1 ∧ watcher.abandons = true)

theorem Collector.ownerId_ne_empty (collector : Collector) :
    collector.ownerId ≠ "" := by
  intro hempty
  have htext := congrArg String.toList hempty
  simp [Collector.ownerId] at htext

theorem Collector.owners_of_le_one {collector : Collector}
    (hone : collector.simulatorsPerGpu ≤ 1) :
    collector.owners = [collector.ownerId] :=
  if_neg (Nat.not_lt.mpr hone)

theorem Collector.ownerId_notMem_owners {collector : Collector}
    (hmany : 1 < collector.simulatorsPerGpu) :
    collector.ownerId ∉ collector.owners := by
  intro howner
  unfold Collector.owners at howner
  rw [if_pos hmany] at howner
  obtain ⟨worker, -, hname⟩ := mem_map.mp howner
  exact Collector.ne_ownerId_simulatorOwnerId worker hname

section Abandon

variable {watcher : Watcher} {cancelled : Collector} {now : ℚ}
  {window : Window ρ}

theorem lookup_abandonCollectorLeases {index : ℕ} {lease : CandidateLease} :
    (watcher.abandonCollectorLeases cancelled.job cancelled.lane now
        window).leases.lookup index = some lease ↔
      window.leases.lookup index = some lease ∧
        (watcher.abandons = true → lease.ownerId ≠ cancelled.ownerId) := by
  unfold Watcher.abandonCollectorLeases
  cases habandons : watcher.abandons with
  | false => simp
  | true =>
    simp only [if_true, forall_const]
    unfold Window.abandonOwnerLeases
    have howned : decimal cancelled.job ++ ":" ++ decimal cancelled.lane =
        cancelled.ownerId := rfl
    rw [howned, if_neg cancelled.ownerId_ne_empty]
    constructor
    · intro hlease
      have hthere := Window.abandonLoop_lookup_of_mem hlease
      refine ⟨hthere, fun howner => ?_⟩
      have hmem : index ∈ window.leasedBy cancelled.ownerId :=
        Window.mem_leasedBy.mpr ⟨lease, hthere, howner⟩
      have hnone : ((window.leasedBy cancelled.ownerId).foldl
          (Window.abandonLease cancelled.ownerId now)
            window).leases.lookup index = none :=
        Window.abandonLoop_lookup (Or.inl hmem)
      exact Option.some_ne_none lease (hlease.symm.trans hnone)
    · rintro ⟨hthere, howner⟩
      have hindex : index ∉ window.leasedBy cancelled.ownerId := by
        intro hmem
        obtain ⟨other, hother, hsame⟩ := Window.mem_leasedBy.mp hmem
        rw [hthere] at hother
        cases hother
        exact howner hsame
      exact (Window.abandonLoop_lookup_of_notMem hindex).trans hthere

theorem leasesOnly_abandonCollectorLeases :
    window.LeasesOnly (watcher.abandonCollectorLeases cancelled.job
      cancelled.lane now window) := by
  unfold Watcher.abandonCollectorLeases Window.abandonOwnerLeases
  split_ifs
  · exact .refl window
  · exact Window.abandonLoop_leasesOnly ..
  · exact .refl window

theorem unheld_abandonCollectorLeases_iff :
    (watcher.abandonCollectorLeases cancelled.job cancelled.lane now
        window).Unheld cancelled.owners ↔
      WatchedAlone watcher cancelled window := by
  constructor
  · intro hunheld
    by_cases halone : cancelled.simulatorsPerGpu ≤ 1 ∧ watcher.abandons = true
    · exact .inr halone
    · left
      intro index lease hlease howner
      refine hunheld index lease
        (lookup_abandonCollectorLeases.mpr ⟨hlease, ?_⟩) howner
      intro habandons hname
      have hmany : 1 < cancelled.simulatorsPerGpu := by
        by_contra hone
        exact halone ⟨Nat.not_lt.mp hone, habandons⟩
      exact Collector.ownerId_notMem_owners hmany (hname ▸ howner)
  · intro hwatched index lease hlease howner
    obtain ⟨hthere, hname⟩ := lookup_abandonCollectorLeases.mp hlease
    cases hwatched with
    | inl hunheld => exact hunheld index lease hthere howner
    | inr halone =>
      rw [Collector.owners_of_le_one halone.1] at howner
      exact hname halone.2 (mem_singleton.mp howner)

theorem claimCandidate_of_lookup_none
    (hnone : window.leases.lookup index = none)
    (hincomplete : ¬ window.candidateComplete index) (hopen : window.isOpen)
    (hround : window.roundReadyToStart spec index)
    (assignment : CandidateAssignment) (owner : String) (timeout clock : ℚ)
    (token : String) (hindex : assignment.candidateIndex = index)
    (howner : owner ≠ "") (htimeout : 0 < timeout) :
    ∃ claimed, (window.claimCandidate spec [assignment] owner timeout none
        clock token).1 = .claimed (some claimed) ∧
      claimed.ownerId = owner ∧ claimed.assignment = assignment := by
  subst hindex
  have hfree : ¬ window.heldByOther owner clock
      assignment.candidateIndex := by
    rintro ⟨current, hcurrent, -⟩
    simp [hnone] at hcurrent
  have hclosed : ¬ window.closed.isSome = true := by
    rw [hopen.1]
    exact Bool.false_ne_true
  have hunique : ([assignment].map (·.candidateIndex)).Nodup :=
    nodup_singleton _
  unfold Window.claimCandidate
  rw [if_neg howner, if_neg (not_le.mpr htimeout),
    if_neg (not_not_intro hunique), if_neg hclosed,
    if_neg (not_not_intro hopen)]
  have horder : Window.claimOrder [assignment] none = [assignment] := rfl
  simp only [horder, Window.claimLoop]
  rw [if_neg (not_not_intro hround), if_neg hincomplete, if_neg hfree]
  exact ⟨_, rfl, rfl, rfl⟩

end Abandon

def twoSimulators : Collector := ⟨7, 3, 2⟩

def oneSimulator : Collector := ⟨7, 3, 1⟩

def heldBy (owner : String) : Window Unit :=
  (Window.initialized pairSpec).writeLease (pairLease 0 owner "t0" 0)

/-- A process that was cancelled claims its candidate again and commits it. -/
def lateOperations : List (Operation Unit) :=
  [.claim [pairAssignment 0] oneSimulator.ownerId 10 none 5 "t1",
    .commit (pairCommit 0 (pairLease 0 oneSimulator.ownerId "t1" 5) true)]

end CollectionStore
end VerlVla
