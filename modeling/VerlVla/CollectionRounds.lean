import VerlVla.CollectionSafety
import Mathlib.Data.Int.CardIntervalMod
import Mathlib.Tactic.Linarith

/-!
# The round barrier

In round-balanced mode a window closes after whole candidate rounds.  The
barrier is split between `round_ready_to_start`, which claims look at, and
`close_if_ready`, which runs under a separate lock acquisition.  `Barrier` is
what both keep together as long as no candidate is completed in a window that
is already ready to close, and no candidate of a later round is completed
without having been claimed.
-/

namespace VerlVla
namespace CollectionStore

open LeaseLifecycle Transition

variable {ρ : Type}

namespace Window

/-! ## Counting terminal records -/

@[simp] theorem mem_completedIds {window : Window ρ} :
    index ∈ window.completedIds ↔ window.candidateComplete index := by
  simp [completedIds, candidateComplete, AList.mem_keys]

def acceptedBelow (window : Window ρ) (bound : ℕ) : ℕ :=
  ((Finset.range bound).filter (· ∈ window.accepted)).card

theorem acceptedBelow_eq {before after : Window ρ}
    (honce : ∀ index, SettledOnce before after index)
    (hcomplete : ∀ index < bound, before.candidateComplete index) :
    after.acceptedBelow bound = before.acceptedBelow bound := by
  unfold acceptedBelow
  congr 1
  apply Finset.filter_congr
  intro index hindex
  rcases honce index with hsame | ⟨hopen, _⟩
  · exact hsame .accepted
  · exact absurd (hcomplete index (Finset.mem_range.mp hindex)) hopen

theorem length_accepted_keys {window : Window ρ}
    (hbound : ∀ index ∈ window.accepted, index < bound) :
    window.accepted.keys.length = window.acceptedBelow bound := by
  rw [← List.toFinset_card_of_nodup window.accepted.keys_nodup]
  unfold acceptedBelow
  congr 1
  ext index
  simp only [List.mem_toFinset, Finset.mem_filter, Finset.mem_range,
    AList.mem_keys]
  constructor
  · intro hmem
    exact ⟨hbound index hmem, hmem⟩
  · exact fun hmem => hmem.2

theorem completedCandidateCount_eq_card {window : Window ρ}
    (hexclusive : window.Exclusive) :
    window.completedCandidateCount = window.completedIds.card := by
  have hverdicts : ∀ index left right, window.settledAs index left →
      window.settledAs index right → left = right := hexclusive
  have hfirst : Disjoint window.accepted.keys.toFinset
      window.rejected.keys.toFinset := by
    rw [Finset.disjoint_left]
    intro index haccepted hrejected
    rw [List.mem_toFinset] at haccepted hrejected
    exact absurd (hverdicts index .accepted .rejected haccepted hrejected)
      (by simp)
  have hsecond : Disjoint
      (window.accepted.keys.toFinset ∪ window.rejected.keys.toFinset)
      window.skipped.keys.toFinset := by
    rw [Finset.disjoint_left]
    intro index hmem hskipped
    rw [List.mem_toFinset] at hskipped
    rcases Finset.mem_union.mp hmem with haccepted | hrejected
    · rw [List.mem_toFinset] at haccepted
      exact absurd (hverdicts index .accepted .skipped haccepted hskipped)
        (by simp)
    · rw [List.mem_toFinset] at hrejected
      exact absurd (hverdicts index .rejected .skipped hrejected hskipped)
        (by simp)
  unfold completedIds completedCandidateCount
  rw [Finset.card_union_of_disjoint hsecond,
    Finset.card_union_of_disjoint hfirst,
    List.toFinset_card_of_nodup window.accepted.keys_nodup,
    List.toFinset_card_of_nodup window.rejected.keys_nodup,
    List.toFinset_card_of_nodup window.skipped.keys_nodup]

theorem completedIds_eq_range_iff {window : Window ρ} :
    window.completedIds = Finset.range bound ↔
      ∀ index, window.candidateComplete index ↔ index < bound := by
  simp [Finset.ext_iff]

theorem completedRound_iff {spec : CollectionWindowSpec} {window : Window ρ}
    (hsize : 0 < spec.candidateRoundSize) :
    window.completedRound spec ↔ ∃ rounds, 0 < rounds ∧ window.completedIds =
        Finset.range (rounds * spec.candidateRoundSize) := by
  constructor
  · rintro ⟨hnonempty, hmod, hrange⟩
    have hcard : 0 < window.completedIds.card := hnonempty.card_pos
    have hmul : window.completedIds.card / spec.candidateRoundSize *
        spec.candidateRoundSize = window.completedIds.card :=
      Nat.div_mul_cancel (Nat.dvd_of_mod_eq_zero hmod)
    refine ⟨window.completedIds.card / spec.candidateRoundSize, ?_, ?_⟩
    · by_contra hzero
      rw [Nat.eq_zero_of_not_pos hzero] at hmul
      omega
    · rw [hmul]
      exact hrange
  · rintro ⟨rounds, hrounds, hrange⟩
    have hcard : window.completedIds.card =
        rounds * spec.candidateRoundSize := by
      rw [hrange, Finset.card_range]
    have hpositive := Nat.mul_pos hrounds hsize
    refine ⟨?_, ?_, ?_⟩
    · rw [← Finset.card_pos]
      omega
    · rw [hcard]
      exact Nat.mul_mod_left ..
    · rw [hcard]
      exact hrange

end Window

/-! ## Closed windows -/

/-- A closed window still shows what its closing record was computed from. -/
structure Window.Sealed (spec : CollectionWindowSpec) (window : Window ρ)
    (record : ClosedRecord) : Prop where
  unmarked : window.openMarker = false
  ready : window.closeReady spec
  recorded : ∃ now, record = window.closedRecord spec now

theorem Window.closeReady_congr {before after : Window ρ}
    (hsame : before.LeasesOnly after) :
    after.closeReady spec ↔ before.closeReady spec := by
  unfold closeReady completedRound targetReached budgetExhausted completedIds
    completedCandidateCount
  rw [hsame.accepted, hsame.rejected, hsame.skipped]

theorem Window.closedRecord_congr {before after : Window ρ}
    (hsame : before.LeasesOnly after) (now : ℚ) :
    after.closedRecord spec now = before.closedRecord spec now := by
  unfold closedRecord selection closeOutcome acceptedNames
    completedCandidateCount
  rw [hsame.accepted, hsame.rejected, hsame.skipped]

theorem Operation.Effect.sealed {before after : Window ρ}
    (heffect : Operation.Effect spec before operation reply after)
    (hsealed : ∀ record ∈ before.closed, before.Sealed spec record) :
    ∀ record ∈ after.closed, after.Sealed spec record := by
  intro record hrecord
  cases heffect with
  | leases hsame _ =>
    rw [hsame.closed] at hrecord
    have hbefore := hsealed record hrecord
    rcases hbefore.recorded with ⟨now, hnow⟩
    constructor
    · rw [hsame.openMarker]
      exact hbefore.unmarked
    · exact (Window.closeReady_congr hsame).mpr hbefore.ready
    · exact ⟨now, by rw [Window.closedRecord_congr hsame, hnow]⟩
  | @skipped _ reason now _ indices _ _ _ hopen =>
    rw [(before.skipLoop_frame reason now indices).2.2.1, hopen.1] at hrecord
    cases hrecord
  | accepted hguards _ =>
    rw [show (before.publishAccepted spec _).closed = _ from
      hguards.windowOpen.1] at hrecord
    cases hrecord
  | rejected hguards _ =>
    rw [show (before.publishRejected spec _).closed = _ from
      hguards.windowOpen.1] at hrecord
    cases hrecord
  | @closed now _ hready =>
    cases hrecord
    exact ⟨rfl, hready, now, rfl⟩

theorem StoreRun.sealed
    (hrun : StoreRun spec (Window.initialized spec) events final) :
    ∀ record ∈ final.closed, final.Sealed spec record := by
  apply hrun.invariant fun window =>
    ∀ record ∈ window.closed, window.Sealed spec record
  · intro window operation reply next hsealed hstep
    exact (Operation.Effect.of_apply (store_step_eq.mp hstep)).sealed hsealed
  · exact nofun

/-! ## The barrier -/

def roundStart (spec : CollectionWindowSpec) (index : ℕ) : ℕ :=
  index / spec.candidateRoundSize * spec.candidateRoundSize

section RoundStart

variable {spec : CollectionWindowSpec}

theorem roundStart_eq_of_between (hsize : 0 < spec.candidateRoundSize)
    (hlow : roundStart spec index ≤ later)
    (hhigh : roundStart spec later ≤ index) :
    roundStart spec later = roundStart spec index := by
  have hlater : index / spec.candidateRoundSize ≤
      later / spec.candidateRoundSize :=
    (Nat.le_div_iff_mul_le hsize).mpr hlow
  have hindex : later / spec.candidateRoundSize ≤
      index / spec.candidateRoundSize :=
    (Nat.le_div_iff_mul_le hsize).mpr hhigh
  unfold roundStart
  rw [le_antisymm hindex hlater]

theorem roundStart_mul (hsize : 0 < spec.candidateRoundSize) (rounds : ℕ) :
    roundStart spec (rounds * spec.candidateRoundSize) =
      rounds * spec.candidateRoundSize := by
  unfold roundStart
  rw [Nat.mul_div_cancel _ hsize]

theorem roundReadyToStart_iff {window : Window ρ}
    (hround : spec.completeRoundAfterTarget = true) :
    window.roundReadyToStart spec index ↔
      ∀ earlier < roundStart spec index, window.candidateComplete earlier := by
  unfold Window.roundReadyToStart roundStart
  simp [hround]

end RoundStart

/-- A candidate completed by the operation was claimed or may be claimed, and
the window is not yet ready to close. -/
def OrderlyStep (spec : CollectionWindowSpec) (window : Window ρ)
    (operation : Operation ρ) : Prop :=
  ∀ index ∈ (operation.apply spec window).2.completedIds,
    ¬window.candidateComplete index → ¬window.closeReady spec ∧
        (index ∈ window.leases ∨ window.roundReadyToStart spec index)

instance (spec : CollectionWindowSpec) (window : Window ρ)
    (operation : Operation ρ) :
    Decidable (OrderlyStep spec window operation) :=
  inferInstanceAs (Decidable (∀ _ ∈ _, _ → _ ∧ _))

def Orderly (spec : CollectionWindowSpec) (events : List (StoreEvent ρ)) :
    Prop :=
  ∀ event ∈ events, OrderlyStep spec event.before event.label

structure Barrier (spec : CollectionWindowSpec) (window : Window ρ) :
    Prop where
  started : ∀ index, window.status index ≠ .idle →
    ∀ earlier < roundStart spec index, window.candidateComplete earlier
  unfinished : ∀ index, window.candidateComplete index →
    0 < roundStart spec index →
    window.acceptedBelow (roundStart spec index) < spec.targetAcceptedGroups ∧
      roundStart spec index < spec.maxCandidateGroups

section Barrier

variable {spec : CollectionWindowSpec} {window next : Window ρ}
  {operation : Operation ρ} {reply : Reply} {index : ℕ}

theorem status_ne_idle_of_mem_leases (hlease : index ∈ window.leases) :
    window.status index ≠ .idle := by
  by_cases hcomplete : window.candidateComplete index
  · intro hidle
    have hsettled := (window.status_isSettled_iff index).mpr hcomplete
    rw [hidle] at hsettled
    exact hsettled
  · rw [Window.status_of_not_complete hcomplete]
    unfold Window.leaseStatus
    rcases AList.lookup_isSome.mpr hlease |> Option.isSome_iff_exists.mp with
      ⟨lease, hlookup⟩
    rw [hlookup]
    simp

theorem status_ne_idle_of_complete
    (hcomplete : window.candidateComplete index) :
    window.status index ≠ .idle := by
  intro hidle
  have hsettled := (window.status_isSettled_iff index).mpr hcomplete
  rw [hidle] at hsettled
  exact hsettled

theorem started_by_claim_or_completion
    (hstep : operation.apply spec window = (reply, next))
    (hbefore : window.status index = .idle)
    (hafter : next.status index ≠ .idle) :
    (∃ lease, reply = .claimed (some lease) ∧
        lease.assignment.candidateIndex = index) ∨
      ¬window.candidateComplete index ∧ next.candidateComplete index := by
  have hadvance := operation.apply_advance spec window index
  rw [hstep, hbefore] at hadvance
  have hopen : ¬window.candidateComplete index := by
    intro hcomplete
    exact status_ne_idle_of_complete hcomplete hbefore
  cases hcomplete : decide (next.candidateComplete index) with
  | true => exact .inr ⟨hopen, of_decide_eq_true hcomplete⟩
  | false =>
    left
    have hunsettled : ¬(next.status index).isSettled := by
      rw [next.status_isSettled_iff]
      exact of_decide_eq_false hcomplete
    cases hstatus : next.status index with
    | idle => exact absurd hstatus hafter
    | settled verdict =>
      rw [hstatus] at hunsettled
      exact absurd trivial hunsettled
    | leased ticket =>
      rw [hstatus] at hadvance
      rcases hadvance.held_or_issued with hidle | hissued
      · cases hidle
      · cases reply with
        | claimed lease =>
          cases lease with
          | none => simp [Reply.issuedFor] at hissued
          | some lease =>
            refine ⟨lease, rfl, ?_⟩
            by_contra hindex
            simp [Reply.issuedFor, hindex] at hissued
        | _ => simp [Reply.issuedFor] at hissued

section

variable (hround : spec.completeRoundAfterTarget = true)
  (hexclusive : window.Exclusive) (hbarrier : Barrier spec window)

include hround hexclusive hbarrier

/-- Before the window is ready to close, a candidate that may be completed is
in a round before which the target is not reached. -/
theorem Barrier.target_not_reached (hopen : ¬window.candidateComplete index)
    (hearlier : ∀ earlier < roundStart spec index,
      window.candidateComplete earlier)
    (hnotReady : ¬window.closeReady spec)
    (hpositive : 0 < roundStart spec index) :
    window.acceptedBelow (roundStart spec index) < spec.targetAcceptedGroups ∧
      roundStart spec index < spec.maxCandidateGroups := by
  have hsize := spec.bounds.roundSize_pos hround
  by_cases hlater : ∃ later, window.candidateComplete later ∧
      roundStart spec index ≤ later
  · -- A candidate of the same round is complete already.
    rcases hlater with ⟨later, hcomplete, hlow⟩
    have hhigh : roundStart spec later ≤ index := by
      by_contra hbeyond
      have hstarted := hbarrier.started later
        (status_ne_idle_of_complete hcomplete) index (not_le.mp hbeyond)
      exact hopen hstarted
    have hsame := roundStart_eq_of_between hsize hlow hhigh
    rw [← hsame] at hpositive ⊢
    exact hbarrier.unfinished later hcomplete hpositive
  · -- The completed candidates are exactly the earlier rounds.
    have hbound : ∀ other, window.candidateComplete other ↔
        other < roundStart spec index := by
      intro other
      constructor
      · intro hcomplete
        by_contra hbeyond
        exact hlater ⟨other, hcomplete, not_lt.mp hbeyond⟩
      · exact hearlier other
    have hrange := Window.completedIds_eq_range_iff.mpr hbound
    have hcompleted : window.completedRound spec := by
      apply (Window.completedRound_iff hsize).mpr
      refine ⟨index / spec.candidateRoundSize, ?_, hrange⟩
      by_contra hzero
      unfold roundStart at hpositive
      rw [Nat.eq_zero_of_not_pos hzero] at hpositive
      omega
    have hnotReached : ¬window.targetReached spec := by
      intro hreached
      apply hnotReady
      unfold Window.closeReady
      rw [if_neg (by simp [spec.bounds.round_not_drain hround]), if_pos hround]
      exact ⟨hcompleted, hreached⟩
    have hcount : window.completedCandidateCount = roundStart spec index := by
      rw [Window.completedCandidateCount_eq_card hexclusive, hrange,
        Finset.card_range]
    have haccepted : window.accepted.keys.length =
        window.acceptedBelow (roundStart spec index) :=
      Window.length_accepted_keys fun other hmem =>
        (hbound other).mp (.inl hmem)
    unfold Window.targetReached Window.budgetExhausted at hnotReached
    omega

theorem Barrier.step (horderly : OrderlyStep spec window operation)
    (hstep : operation.apply spec window = (reply, next)) :
    Barrier spec next := by
  have heffect := Operation.Effect.of_apply hstep
  have hkeeps : ∀ other, window.candidateComplete other →
      next.candidateComplete other := fun other hcomplete =>
    (heffect.settledOnce other).candidateComplete hcomplete
  -- What an orderly completion needs: its round may start.
  have hstartable : ∀ other, ¬window.candidateComplete other →
      next.candidateComplete other → ¬window.closeReady spec ∧
        ∀ earlier < roundStart spec other,
          window.candidateComplete earlier := by
    intro other hopen hcomplete
    have hcompleted : other ∈
        (operation.apply spec window).2.completedIds := by
      rw [hstep, Window.mem_completedIds]
      exact hcomplete
    rcases horderly other hcompleted hopen with ⟨hnotReady, hlease | hready⟩
    · exact ⟨hnotReady,
        hbarrier.started other (status_ne_idle_of_mem_leases hlease)⟩
    · exact ⟨hnotReady, (roundReadyToStart_iff hround).mp hready⟩
  constructor
  · intro other hafter earlier hearlier
    apply hkeeps
    by_cases hbefore : window.status other = .idle
    · rcases started_by_claim_or_completion hstep hbefore hafter with
        ⟨lease, hreply, hindex⟩ | ⟨hopen, hcomplete⟩
      · rw [hreply] at hstep
        rcases Operation.claimed_inv hstep with
          ⟨_, _, _, _, _, _, _, _, hloop⟩
        have hclaimable := Window.claimLoop_claimable (congrArg Prod.fst hloop)
        have hready := hclaimable.roundReady
        rw [hindex] at hready
        exact (roundReadyToStart_iff hround).mp hready earlier hearlier
      · exact (hstartable other hopen hcomplete).2 earlier hearlier
    · exact hbarrier.started other hbefore earlier hearlier
  · intro other hcomplete hpositive
    have hcounts : ∀ bound, (∀ earlier < bound,
        window.candidateComplete earlier) →
        next.acceptedBelow bound = window.acceptedBelow bound :=
      fun bound => Window.acceptedBelow_eq heffect.settledOnce
    by_cases hopen : window.candidateComplete other
    · rw [hcounts _ (hbarrier.started other
        (status_ne_idle_of_complete hopen))]
      exact hbarrier.unfinished other hopen hpositive
    · have hstart := hstartable other hopen hcomplete
      rw [hcounts _ hstart.2]
      exact hbarrier.target_not_reached hround hexclusive hopen hstart.2
        hstart.1 hpositive

end

theorem barrier_initialized :
    Barrier spec (Window.initialized spec : Window ρ) := by
  constructor
  · intro index hstatus
    exact absurd (Window.initialized_status index) hstatus
  · intro index hcomplete
    exact absurd (status_ne_idle_of_complete hcomplete)
      (by simp [Window.initialized_status])

theorem StoreRun.barrier (hround : spec.completeRoundAfterTarget = true)
    (hrun : StoreRun spec (Window.initialized spec) events final)
    (horderly : Orderly spec events) : Barrier spec final := by
  have hboth : final.Exclusive ∧ Barrier spec final := by
    apply hrun.guarded_invariant (OrderlyStep spec)
      fun window => window.Exclusive ∧ Barrier spec window
    · intro window operation reply next hinvariant hguard hstep
      rw [store_step_eq] at hstep
      have heffect := Operation.Effect.of_apply hstep
      constructor
      · exact Window.SettledOnce.exclusive heffect.settledOnce hinvariant.1
      · exact hinvariant.2.step hround hinvariant.1 hguard hstep
    · exact horderly
    · exact ⟨Window.initialized_exclusive, barrier_initialized⟩
  exact hboth.2

end Barrier

/-! ## Closing after whole rounds -/

structure BalancedClose (spec : CollectionWindowSpec) (window : Window ρ)
    (record : ClosedRecord) (rounds : ℕ) : Prop where
  positive : 0 < rounds
  complete_iff : ∀ index, window.candidateComplete index ↔
    index < rounds * spec.candidateRoundSize
  lanes : ∀ lane < spec.candidateRoundSize, (window.completedIds.filter
      (· % spec.candidateRoundSize = lane)).card = rounds
  counted : record.completedCandidateGroups = rounds * spec.candidateRoundSize
  accepted : record.acceptedGroups =
    window.acceptedBelow (rounds * spec.candidateRoundSize)
  selected : ∀ index, index ∈ record.selectedGroups ↔
    index < rounds * spec.candidateRoundSize ∧ index ∈ window.accepted
  reached : spec.targetAcceptedGroups ≤ record.acceptedGroups ∨
    spec.maxCandidateGroups ≤ rounds * spec.candidateRoundSize

section Closing

variable {spec : CollectionWindowSpec} {final : Window ρ}
  {events : List (StoreEvent ρ)} {record : ClosedRecord}

theorem card_lane (hlane : lane < size) :
    ((Finset.range (rounds * size)).filter (· % size = lane)).card =
      rounds := by
  have hsize : 0 < size := by omega
  have hcount := Nat.count_modEq_card (rounds * size) hsize lane
  rw [Nat.count_eq_card_filter_range, Nat.mul_mod_left,
    Nat.mul_div_cancel _ hsize] at hcount
  simpa [Nat.ModEq, Nat.mod_eq_of_lt hlane] using hcount

theorem mem_selection_iff {window : Window ρ}
    (hround : spec.completeRoundAfterTarget = true)
    (hready : window.closeOutcome spec = .ready) :
    index ∈ window.selection spec ↔ index ∈ window.accepted := by
  unfold Window.selection
  rw [hready]
  simp [hround, Window.acceptedNames, AList.mem_keys]

theorem Window.Sealed.balanced (hround : spec.completeRoundAfterTarget = true)
    (hexclusive : final.Exclusive) (hsealed : final.Sealed spec record)
    (hready : record.outcome = .ready) :
    ∃ rounds, BalancedClose spec final record rounds := by
  have hsize := spec.bounds.roundSize_pos hround
  have hcloseReady := hsealed.ready
  unfold Window.closeReady at hcloseReady
  rw [if_neg (by simp [spec.bounds.round_not_drain hround]),
    if_pos hround] at hcloseReady
  rcases hcloseReady with ⟨hcompleted, hreached⟩
  rcases (Window.completedRound_iff hsize).mp hcompleted with
    ⟨rounds, hrounds, hrange⟩
  rcases hsealed.recorded with ⟨now, rfl⟩
  have hcomplete := Window.completedIds_eq_range_iff.mp hrange
  have hcount : final.completedCandidateCount =
      rounds * spec.candidateRoundSize := by
    rw [Window.completedCandidateCount_eq_card hexclusive, hrange,
      Finset.card_range]
  refine ⟨rounds, hrounds, hcomplete, ?_, hcount, ?_, ?_, ?_⟩
  · intro lane hlane
    rw [hrange]
    exact card_lane hlane
  · exact Window.length_accepted_keys fun index hmem =>
      (hcomplete index).mp (.inl hmem)
  · intro index
    rw [show (final.closedRecord spec now).selectedGroups =
      final.selection spec from rfl, mem_selection_iff hround hready]
    constructor
    · exact fun hmem => ⟨(hcomplete index).mp (.inl hmem), hmem⟩
    · exact fun hmem => hmem.2
  · unfold Window.targetReached Window.budgetExhausted at hreached
    rw [hcount] at hreached
    exact hreached

theorem Barrier.first_round (hround : spec.completeRoundAfterTarget = true)
    (hbarrier : Barrier spec final)
    (hbalanced : BalancedClose spec final record rounds)
    (hpositive : 0 < earlier) (hearlier : earlier < rounds) :
    final.acceptedBelow (earlier * spec.candidateRoundSize) <
        spec.targetAcceptedGroups ∧
      earlier * spec.candidateRoundSize < spec.maxCandidateGroups := by
  have hsize := spec.bounds.roundSize_pos hround
  have hcomplete : final.candidateComplete
      (earlier * spec.candidateRoundSize) := by
    apply (hbalanced.complete_iff _).mpr
    exact Nat.mul_lt_mul_of_pos_right hearlier hsize
  have hunfinished := hbarrier.unfinished _ hcomplete
  rw [roundStart_mul hsize] at hunfinished
  exact hunfinished (Nat.mul_pos hpositive hsize)

/-- No candidate got different verdicts in the two windows. -/
def Agree (left right : Window ρ) : Prop :=
  ∀ index first second, left.settledAs index first →
    right.settledAs index second → first = second

theorem Agree.symm (hagree : Agree left right) : Agree right left := by
  intro index first second hfirst hsecond
  exact (hagree index second first hsecond hfirst).symm

theorem Agree.mem_accepted (hagree : Agree left right)
    (hright : right.candidateComplete index)
    (haccepted : index ∈ left.accepted) : index ∈ right.accepted := by
  rcases Window.candidateComplete_iff.mp hright with ⟨verdict, hverdict⟩
  have hsame := hagree index .accepted verdict haccepted hverdict
  rw [← hsame] at hverdict
  exact hverdict

theorem Agree.acceptedBelow_eq {left right : Window ρ}
    (hagree : Agree left right)
    (hleft : ∀ index < bound, left.candidateComplete index)
    (hright : ∀ index < bound, right.candidateComplete index) :
    left.acceptedBelow bound = right.acceptedBelow bound := by
  unfold Window.acceptedBelow
  congr 1
  apply Finset.filter_congr
  intro index hindex
  rw [Finset.mem_range] at hindex
  constructor
  · exact hagree.mem_accepted (hright index hindex)
  · exact hagree.symm.mem_accepted (hleft index hindex)

theorem BalancedClose.rounds_le (hround : spec.completeRoundAfterTarget = true)
    (hagree : Agree left right) (hbarrier : Barrier spec right)
    (hleft : BalancedClose spec left leftRecord leftRounds)
    (hright : BalancedClose spec right rightRecord rightRounds) :
    rightRounds ≤ leftRounds := by
  by_contra hless
  rw [not_le] at hless
  have hfirst := hbarrier.first_round hround hright hleft.positive hless
  have hbound : leftRounds * spec.candidateRoundSize ≤
      rightRounds * spec.candidateRoundSize :=
    Nat.mul_le_mul_right _ hless.le
  have hcounts := hagree.acceptedBelow_eq
    (fun index hindex => (hleft.complete_iff index).mpr hindex)
    (fun index hindex => (hright.complete_iff index).mpr
      (hindex.trans_le hbound))
  have hreached := hleft.reached
  rw [hleft.accepted] at hreached
  omega

theorem BalancedClose.selected_iff (hagree : Agree left right)
    (hleft : BalancedClose spec left leftRecord rounds)
    (hright : BalancedClose spec right rightRecord rounds) (index : ℕ) :
    index ∈ leftRecord.selectedGroups ↔
      index ∈ rightRecord.selectedGroups := by
  rw [hleft.selected, hright.selected]
  constructor
  · rintro ⟨hindex, haccepted⟩
    have hcomplete := (hright.complete_iff index).mpr hindex
    exact ⟨hindex, hagree.mem_accepted hcomplete haccepted⟩
  · rintro ⟨hindex, haccepted⟩
    have hcomplete := (hleft.complete_iff index).mpr hindex
    exact ⟨hindex, hagree.symm.mem_accepted hcomplete haccepted⟩

/-- A round-balanced window that closed ready closed with whole rounds, all of
whose accepted candidates are selected.  In orderly runs these are the rounds
up to the first one that reaches the target, or the whole budget, so the
selection is determined by the verdicts. -/
theorem round_balanced_close
    (hround : spec.completeRoundAfterTarget = true)
    (hrun : StoreRun spec (Window.initialized spec) events final)
    (hclosed : final.closed = some record)
    (hready : record.outcome = .ready) :
    ∃ rounds, BalancedClose spec final record rounds ∧ (Orderly spec events →
        (∀ earlier, 0 < earlier → earlier < rounds →
          final.acceptedBelow (earlier * spec.candidateRoundSize) <
              spec.targetAcceptedGroups ∧
            earlier * spec.candidateRoundSize < spec.maxCandidateGroups) ∧
        ∀ (otherEvents : List (StoreEvent ρ)) (other : Window ρ)
          (otherRecord : ClosedRecord),
          StoreRun spec (Window.initialized spec) otherEvents other →
          Orderly spec otherEvents → other.closed = some otherRecord →
          otherRecord.outcome = .ready → Agree final other →
          ∀ index, index ∈ record.selectedGroups ↔
            index ∈ otherRecord.selectedGroups) := by
  have hexclusive := StoreRun.exclusive hrun Window.initialized_exclusive
  rcases (StoreRun.sealed hrun record hclosed).balanced hround hexclusive
    hready with ⟨rounds, hbalanced⟩
  refine ⟨rounds, hbalanced, ?_⟩
  intro horderly
  have hbarrier := StoreRun.barrier hround hrun horderly
  constructor
  · intro earlier hpositive hearlier
    exact hbarrier.first_round hround hbalanced hpositive hearlier
  · intro otherEvents other otherRecord hotherRun hotherOrderly hotherClosed
      hotherReady hagree
    have hotherExclusive :=
      StoreRun.exclusive hotherRun Window.initialized_exclusive
    have hotherBarrier := StoreRun.barrier hround hotherRun hotherOrderly
    rcases (StoreRun.sealed hotherRun otherRecord hotherClosed).balanced
      hround hotherExclusive hotherReady with ⟨otherRounds, hother⟩
    have hrounds : otherRounds = rounds := by
      apply le_antisymm
      · exact hbalanced.rounds_le hround hagree hotherBarrier hother
      · exact hother.rounds_le hround hagree.symm hbarrier hbalanced
    subst hrounds
    exact hbalanced.selected_iff hagree hother

end Closing

/-- Two rounds of two lanes, of which two candidates must be accepted. -/
def balancedSpec : CollectionWindowSpec where
  runId := "run"
  intendedUpdate := 1
  groupSize := 8
  targetAcceptedGroups := 2
  minimumAcceptedGroups := 1
  maxCandidateGroups := 4
  policy :=
    { immutableBasePath := "base"
      immutableBaseSha256 := "00"
      trainerCheckpointPath := none
      rolloutPolicyVersion := 1 }
  completeRoundAfterTarget := true
  candidateRoundSize := 2
  checked := by decide +kernel

def claimAndCommit (ownerId : String) (index : ℕ) (informative : Bool) :
    List (Operation Unit) :=
  [.claim [pairAssignment index] ownerId 10 none 0 "t",
    .commit (pairCommit index (pairLease index ownerId "t" 0) informative)]

def firstRoundOperations : List (Operation Unit) :=
  claimAndCommit "a" 0 true ++ claimAndCommit "b" 1 true ++ [.closeIfReady 0]

def firstRoundRecord : ClosedRecord where
  outcome := .ready
  acceptedGroups := 2
  rejectedGroups := 0
  skippedCandidateGroups := 0
  completedCandidateGroups := 2
  completeRoundAfterTarget := true
  candidateRoundSize := 2
  drainCandidateBudget := false
  selectedGroups := [0, 1]
  closedAtUnixS := 0

theorem firstRound_orderly :
    Orderly balancedSpec (replay balancedSpec firstRoundOperations).1 := by
  unfold Orderly
  decide +kernel

theorem firstRound_closed :
    (replay balancedSpec firstRoundOperations).2.closed =
      some firstRoundRecord := by
  decide +kernel

theorem round_balanced_close_first_round :
    ∃ rounds, BalancedClose balancedSpec
        (replay balancedSpec firstRoundOperations).2 firstRoundRecord rounds ∧
      ∀ earlier, 0 < earlier → earlier < rounds →
        (replay balancedSpec firstRoundOperations).2.acceptedBelow
          (earlier * 2) < 2 := by
  have hclose := round_balanced_close rfl
    (replay_run balancedSpec firstRoundOperations) firstRound_closed rfl
  rcases hclose with ⟨rounds, hbalanced, hfirst⟩
  refine ⟨rounds, hbalanced, ?_⟩
  intro earlier hpositive hearlier
  exact ((hfirst firstRound_orderly).1 earlier hpositive hearlier).1

/-- The whole budget completes without a round that reaches the target. -/
def budgetOperations : List (Operation Unit) :=
  claimAndCommit "a" 0 true ++ claimAndCommit "b" 1 false ++
    claimAndCommit "a" 2 false ++ claimAndCommit "b" 3 false ++
    [.closeIfReady 0]

/-- A worker enters the second round before the window is closed. -/
def overtakingOperations : List (Operation Unit) :=
  claimAndCommit "a" 0 true ++ claimAndCommit "b" 1 true ++
    claimAndCommit "b" 2 true ++ [.closeIfReady 0] ++
    claimAndCommit "a" 3 false ++ [.closeIfReady 0]

theorem closes_beyond_first_target_round :
    ((replay balancedSpec budgetOperations).2.closed.map
        fun record => (record.outcome, record.acceptedGroups)) =
      some (.ready, 1) ∧
    ((replay balancedSpec overtakingOperations).2.closed.map
        fun record => (record.outcome, record.selectedGroups)) =
      some (.ready, [0, 1, 2]) ∧
    (replay balancedSpec overtakingOperations).2.acceptedBelow
      balancedSpec.candidateRoundSize = balancedSpec.targetAcceptedGroups := by
  refine ⟨by decide +kernel, by decide +kernel, by decide +kernel⟩

end CollectionStore
end VerlVla
