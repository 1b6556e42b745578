import VerlVla.CollectionClosing
import VerlVla.PaddedDigits
import Mathlib.Data.String.Basic

/-!
# The order of the selected candidates

A listing is sorted by name, whatever the order of the commits.  Where the
names are in the order of their numbers, the selection is the smallest accepted
candidates, in increasing order.
-/

namespace VerlVla

open List hiding count
namespace CollectionStore

variable {ρ : Type}

def NamedInOrder (indices : List ℕ) : Prop :=
  ∀ left ∈ indices, ∀ right ∈ indices, left < right →
    candidateId left < candidateId right

theorem fourDigits_allDigits (index : ℕ) : AllDigits (fourDigits index) :=
  all_eq_true.mp (fourDigits_all_isDigit index)

theorem candidateId_lt
    (hlength : (fourDigits left).length = (fourDigits right).length)
    (hless : left < right) : candidateId left < candidateId right := by
  have hdigits : fourDigits left < fourDigits right := by
    apply lt_of_ofDigitChars_lt (fourDigits_allDigits left)
      (fourDigits_allDigits right) hlength
    rw [ofDigitChars_fourDigits, ofDigitChars_fourDigits]
    exact hless
  rw [String.lt_iff_toList_lt]
  unfold candidateId
  rw [String.toList_ofList, String.toList_ofList]
  exact append_left_lt hdigits

theorem namedInOrder_of_width
    (hwidth : ∀ index ∈ indices, (fourDigits index).length = width) :
    NamedInOrder indices := by
  intro left hleft right hright hless
  apply candidateId_lt _ hless
  rw [hwidth left hleft, hwidth right hright]

theorem length_fourDigits (hindex : index < 10000) :
    (fourDigits index).length = 4 := by
  have hdigits : (Nat.toDigits 10 index).length ≤ 4 :=
    (Nat.length_toDigits_le_iff (by decide) (by decide)).mpr hindex
  unfold fourDigits
  rw [length_append, length_replicate]
  omega

theorem namedInOrder_of_lt (hsmall : ∀ index ∈ indices, index < 10000) :
    NamedInOrder indices :=
  namedInOrder_of_width fun index hindex =>
    length_fourDigits (hsmall index hindex)

/-! ## Sorted listings -/

instance : Std.Total nameLe where
  total left right := le_total (candidateId left) (candidateId right)

instance : IsTrans ℕ nameLe where
  trans _ _ _ hleft hright := le_trans hleft hright

instance : Std.Antisymm nameLe where
  antisymm _ _ hleft hright := candidateId_injective (le_antisymm hleft hright)

theorem sortedNames_perm (hperm : left.Perm right) :
    sortedNames left = sortedNames right := by
  have hleft := perm_insertionSort nameLe left
  have hright := perm_insertionSort nameLe right
  apply Perm.eq_of_pairwise' (r := nameLe)
  · exact pairwise_insertionSort nameLe left
  · exact pairwise_insertionSort nameLe right
  · exact (hleft.trans hperm).trans hright.symm

theorem sortedNames_increasing (hnodup : indices.Nodup)
    (hnamed : NamedInOrder indices) :
    (sortedNames indices).Pairwise (· < ·) := by
  have hsorted := pairwise_insertionSort nameLe indices
  have hdistinct : (sortedNames indices).Nodup :=
    (perm_insertionSort nameLe indices).nodup_iff.mpr hnodup
  apply (hsorted.and hdistinct).imp_of_mem
  intro left right hleft hright hboth
  by_contra hnot
  have hbefore : right < left :=
    lt_of_le_of_ne (not_lt.mp hnot) (Ne.symm hboth.2)
  have hname := hnamed right (mem_sortedNames.mp hright) left
    (mem_sortedNames.mp hleft) hbefore
  exact absurd hboth.1 (not_le.mpr hname)

theorem lt_of_mem_take {entries : List ℕ}
    (hincreasing : entries.Pairwise (· < ·))
    (hchosen : chosen ∈ entries.take count) (hother : other ∈ entries)
    (hleft : other ∉ entries.take count) : chosen < other := by
  rw [← take_append_drop count entries] at hincreasing hother
  have hlater : other ∈ entries.drop count := by
    cases mem_append.mp hother with
    | inl htaken => exact absurd htaken hleft
    | inr hlater => exact hlater
  exact (pairwise_append.mp hincreasing).2.2 chosen hchosen other hlater

/-! ## The selection of a close -/

structure SelectsInOrder (spec : CollectionWindowSpec) (window : Window ρ)
    (record : ClosedRecord) : Prop where
  insufficient : window.accepted.keys.length < spec.minimumAcceptedGroups →
      record.selectedGroups = []
  smallest : NamedInOrder window.accepted.keys →
    spec.minimumAcceptedGroups ≤ window.accepted.keys.length →
      spec.closeMode = .immediate → record.selectedGroups.length =
            min spec.targetAcceptedGroups window.accepted.keys.length ∧
          (∀ chosen ∈ record.selectedGroups, chosen ∈ window.accepted.keys) ∧
          ∀ chosen ∈ record.selectedGroups, ∀ other ∈ window.accepted.keys,
              other ∉ record.selectedGroups → chosen < other
  increasing : NamedInOrder window.accepted.keys →
    record.selectedGroups.Pairwise (· < ·)
  anyOrder : ∀ (other : Window ρ) (now : ℚ) (otherRecord : ClosedRecord),
    other.closed = none → other.accepted.keys.Perm window.accepted.keys →
        (other.closeIfReady spec now).1 = .closeState (some otherRecord) →
          otherRecord.selectedGroups = record.selectedGroups

section Selection

variable {spec : CollectionWindowSpec} {window : Window ρ}

theorem selectedGroups_of_close {record : ClosedRecord}
    (hopen : window.closed = none) (hclose :
      (window.closeIfReady spec now).1 = .closeState (some record)) :
    record.selectedGroups = window.selection spec := by
  unfold Window.closeIfReady at hclose
  rw [hopen] at hclose
  dsimp only at hclose
  by_cases hready : window.closeReady spec
  · rw [if_pos hready] at hclose
    cases hclose
    rfl
  · rw [if_neg hready] at hclose
    cases hclose

theorem selection_insufficient
    (hfew : window.accepted.keys.length < spec.minimumAcceptedGroups) :
    window.selection spec = [] := by
  have houtcome : window.closeOutcome spec =
      .insufficientInformativeGroups := if_pos hfew
  unfold Window.selection
  rw [houtcome]

theorem closeOutcome_ready
    (hmany : spec.minimumAcceptedGroups ≤ window.accepted.keys.length) :
    window.closeOutcome spec = .ready := if_neg (not_lt.mpr hmany)

theorem selection_perm {other : Window ρ}
    (hperm : other.accepted.keys.Perm window.accepted.keys) :
    other.selection spec = window.selection spec := by
  have hnames : other.acceptedNames = window.acceptedNames :=
    sortedNames_perm hperm
  have houtcome : other.closeOutcome spec = window.closeOutcome spec := by
    unfold Window.closeOutcome
    rw [hperm.length_eq]
  unfold Window.selection
  rw [houtcome, hnames]

theorem acceptedNames_increasing (hnamed : NamedInOrder window.accepted.keys) :
    window.acceptedNames.Pairwise (· < ·) :=
  sortedNames_increasing (AList.keys_nodup window.accepted) hnamed

theorem selection_increasing (hnamed : NamedInOrder window.accepted.keys) :
    (window.selection spec).Pairwise (· < ·) := by
  have hnames := acceptedNames_increasing hnamed
  by_cases hfew : window.accepted.keys.length < spec.minimumAcceptedGroups
  · rw [selection_insufficient hfew]
    exact List.Pairwise.nil
  · rw [selection_ready (closeOutcome_ready (not_lt.mp hfew))]
    by_cases hmode : spec.closeMode = .immediate
    · rw [if_pos hmode]
      exact hnames.take
    · rw [if_neg hmode]
      exact hnames

/-- A close selects the smallest accepted candidates in increasing order,
whatever the order of the commits, where the names are in the order of the
numbers. -/
theorem selects_in_order {now : ℚ} {record : ClosedRecord}
    (hopen : window.closed = none)
    (hclose : (window.closeIfReady spec now).1 = .closeState (some record)) :
    SelectsInOrder spec window record ∧
      ((∀ index ∈ window.accepted.keys, index < 10000) →
        NamedInOrder window.accepted.keys) := by
  have hselected := selectedGroups_of_close hopen hclose
  constructor
  · constructor
    · intro hfew
      rw [hselected]
      exact selection_insufficient hfew
    · intro hnamed hmany hmode
      have hnames := acceptedNames_increasing hnamed
      rw [hselected, selection_ready (closeOutcome_ready hmany), if_pos hmode]
      constructor
      · rw [length_take, Window.acceptedNames, length_sortedNames]
      · constructor
        · intro chosen hchosen
          exact mem_sortedNames.mp (mem_of_mem_take hchosen)
        · intro chosen hchosen other hother hleft
          exact lt_of_mem_take hnames hchosen
            (mem_sortedNames.mpr hother) hleft
    · intro hnamed
      rw [hselected]
      exact selection_increasing hnamed
    · intro other now otherRecord hother hperm hagain
      rw [selectedGroups_of_close hother hagain, hselected]
      exact selection_perm hperm
  · exact namedInOrder_of_lt

end Selection

/-! ## Windows at a close -/

def plainGroup (index : ℕ) : AcceptedGroup Unit where
  rollout := []
  rolloutEndObs := []
  candidate :=
    { candidateIndex := index
      taskName := "stack"
      taskId := 0
      suiteId := 3
      layoutId := 0
      policySeeds := [] }
  policy := pairSpec.policy
  groupRecord :=
    { groupId := candidateId index
      rolloutPolicyVersion := 1
      informative := true }

/-- An open window with these accepted and skipped candidates, the last commit
first. -/
def openWindow (accepted skipped : List ℕ) : Window Unit where
  manifest := none
  openMarker := true
  closed := none
  accepted := accepted.foldr
    (fun index groups => groups.insert index (plainGroup index)) ∅
  rejected := ∅
  skipped := skipped.foldr (fun index records => records.insert index
    { candidateId := candidateId index, reason := "", skippedAtUnixS := 0 }) ∅
  integrityFailures := []
  leases := ∅
  leaseEvents := []

theorem selects_in_order_of_two :
    SelectsInOrder pairSpec (openWindow [1, 0] [])
        ((openWindow [1, 0] []).closedRecord pairSpec 5) ∧
      ((∀ index ∈ (openWindow [1, 0] []).accepted.keys, index < 10000) →
        NamedInOrder (openWindow [1, 0] []).accepted.keys) := by
  have hready : (openWindow [1, 0] []).closeReady pairSpec := by
    decide +kernel
  have hclose : ((openWindow [1, 0] []).closeIfReady pairSpec 5).1 =
      .closeState (some
        ((openWindow [1, 0] []).closedRecord pairSpec 5)) := by
    unfold Window.closeIfReady
    dsimp only [openWindow]
    exact congrArg Prod.fst (if_pos hready)
  exact selects_in_order rfl hclose

/-- A window of one group out of more than ten thousand candidates. -/
def wideSpec : CollectionWindowSpec where
  runId := "run"
  intendedUpdate := 1
  groupSize := 8
  targetAcceptedGroups := 1
  minimumAcceptedGroups := 1
  maxCandidateGroups := 20000
  policy := pairSpec.policy
  checked := by decide +kernel

/-- Too few accepted candidates are not selected, and candidate 10000 is
selected before candidate 9999. -/
theorem selection_not_smallest : (pairSpec.closeMode = .immediate ∧
        (openWindow [0] [1]).accepted.keys = [0] ∧
        ((openWindow [0] [1]).closeIfReady pairSpec 5).2.closed.map
          ClosedRecord.selectedGroups = some []) ∧
      wideSpec.closeMode = .immediate ∧
        (openWindow [9999, 10000] []).accepted.keys = [9999, 10000] ∧
        ((openWindow [9999, 10000] []).closeIfReady wideSpec 5).2.closed.map
          ClosedRecord.selectedGroups = some [10000] := by
  decide +kernel

end CollectionStore
end VerlVla
