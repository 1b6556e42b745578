import Mathlib

/-!
# Shares of work

Pieces of work in a fixed order are shared among lanes by their positions.  The
shares of all lanes together are the work, and a table that adds up what each
piece leaves over holds, for each lane, what its share leaves over.

Pieces are also gathered by a key, in the order in which the keys appear.
-/

namespace VerlVla

open List hiding cons count head nil

variable {α κ : Type}

/-! ## Shares by position -/

/-- The pieces whose positions belong to a lane. -/
def laneShare (laneOf : ℕ → ℕ) (lane : ℕ) (work : List α) : List α :=
  (work.zipIdx.filter fun entry => laneOf entry.2 = lane).map Prod.fst

theorem perm_flatMap_filter [DecidableEq κ] (key : α → κ) {keys : List κ}
    (hkeys : keys.Nodup) (entries : List α) :
    (keys.flatMap fun each => entries.filter fun entry => key entry = each).Perm
      (entries.filter fun entry => key entry ∈ keys) := by
  induction keys with
  | nil => simp
  | cons first rest ih =>
    obtain ⟨hfirst, hrest⟩ := nodup_cons.mp hkeys
    have hrestOf : (entries.filter fun entry => key entry ∈ rest) =
        (entries.filter fun entry => key entry ∈ first :: rest).filter
          fun entry => ¬ key entry = first := by
      rw [filter_filter]
      apply filter_congr
      intro entry _
      by_cases hentry : key entry = first
      · simp [hentry, hfirst]
      · simp [hentry]
    have hfirstOf : (entries.filter fun entry => key entry = first) =
        (entries.filter fun entry => key entry ∈ first :: rest).filter
          fun entry => key entry = first := by
      rw [filter_filter]
      apply filter_congr
      intro entry _
      by_cases hentry : key entry = first
      · simp [hentry]
      · simp [hentry]
    rw [flatMap_cons, hfirstOf]
    refine (Perm.append_left _ ((ih hrest).trans
      (Perm.of_eq hrestOf))).trans ?_
    have hsplit := filter_append_perm (fun entry => decide (key entry = first))
      (entries.filter fun entry => key entry ∈ first :: rest)
    refine (Perm.of_eq ?_).trans hsplit
    congr 1
    apply filter_congr
    intro entry _
    simp

theorem perm_flatMap_laneShare (laneOf : ℕ → ℕ) {lanes : List ℕ}
    (hlanes : lanes.Nodup) (work : List α) :
    (lanes.flatMap fun lane => laneShare laneOf lane work).Perm
      ((work.zipIdx.filter fun entry => laneOf entry.2 ∈ lanes).map
        Prod.fst) := by
  have hperm := perm_flatMap_filter (fun entry : α × ℕ => laneOf entry.2)
    hlanes work.zipIdx
  have hmapped := hperm.map Prod.fst
  rw [map_flatMap] at hmapped
  exact hmapped

theorem perm_flatMap_laneShare_range {laneOf : ℕ → ℕ}
    (hlanes : ∀ index, laneOf index < count) (work : List α) :
    ((range count).flatMap fun lane => laneShare laneOf lane work).Perm
      work := by
  refine (perm_flatMap_laneShare laneOf nodup_range work).trans ?_
  have hall : (work.zipIdx.filter
      fun entry => laneOf entry.2 ∈ range count) = work.zipIdx := by
    apply filter_eq_self.mpr
    intro entry _
    exact decide_eq_true (mem_range.mpr (hlanes entry.2))
  rw [hall, zipIdx_map_fst]

theorem laneShare_map {β : Type} (f : α → β) (laneOf : ℕ → ℕ) (lane : ℕ)
    (work : List α) :
    laneShare laneOf lane (work.map f) =
      (laneShare laneOf lane work).map f := by
  unfold laneShare
  rw [zipIdx_map, filter_map, map_map, map_map]
  rfl

theorem laneShare_snoc (laneOf : ℕ → ℕ) (lane : ℕ) (work : List α)
    (piece : α) :
    laneShare laneOf lane (work ++ [piece]) = laneShare laneOf lane work ++
        if laneOf work.length = lane then [piece] else [] := by
  unfold laneShare
  rw [zipIdx_append, filter_append, map_append]
  by_cases hlane : laneOf work.length = lane
  · simp [hlane]
  · simp [hlane]

def addCount (counts : ℕ → ℕ) (lane amount : ℕ) : ℕ → ℕ :=
  fun other => if other = lane then counts other + amount else counts other

def laneCounts (laneOf : ℕ → ℕ) (amount : α → ℕ) (work : List α) : ℕ → ℕ :=
  work.zipIdx.foldl (fun counts entry =>
      if amount entry.1 = 0 then counts
      else addCount counts (laneOf entry.2) (amount entry.1))
    (fun _ => 0)

theorem laneCounts_eq (laneOf : ℕ → ℕ) (amount : α → ℕ) (work : List α)
    (lane : ℕ) :
    laneCounts laneOf amount work lane =
      ((laneShare laneOf lane work).map amount).sum := by
  induction work using reverseRecOn with
  | nil => rfl
  | append_singleton work piece ih =>
    have hstep : laneCounts laneOf amount (work ++ [piece]) =
        if amount piece = 0 then laneCounts laneOf amount work
        else addCount (laneCounts laneOf amount work) (laneOf work.length)
          (amount piece) := by
      unfold laneCounts
      rw [zipIdx_append, foldl_append]
      simp
    rw [hstep, laneShare_snoc]
    by_cases hzero : amount piece = 0
    · rw [if_pos hzero, ih]
      by_cases hlane : laneOf work.length = lane
      · simp [hlane, hzero]
      · simp [hlane]
    · rw [if_neg hzero]
      by_cases hlane : laneOf work.length = lane
      · subst hlane
        simp [addCount, ih]
      · have hother : lane ≠ laneOf work.length := Ne.symm hlane
        simp [addCount, ih, hlane, hother]

/-! ## Groups in the order of their keys -/

def addToGroup [DecidableEq κ] (key : κ) (piece : α) :
    List (κ × List α) → List (κ × List α)
  | [] => [(key, [piece])]
  | (other, group) :: groups =>
    if other = key then (other, group ++ [piece]) :: groups
    else (other, group) :: addToGroup key piece groups

def groupInOrder [DecidableEq κ] (key : α → κ) (pieces : List α) :
    List (κ × List α) :=
  pieces.foldl (fun groups piece => addToGroup (key piece) piece groups) []

section Groups

variable [DecidableEq κ]

theorem perm_addToGroup (key : κ) (piece : α) (groups : List (κ × List α)) :
    ((addToGroup key piece groups).flatMap Prod.snd).Perm
      (groups.flatMap Prod.snd ++ [piece]) := by
  induction groups with
  | nil => exact .refl _
  | cons head groups ih =>
    obtain ⟨other, group⟩ := head
    unfold addToGroup
    split_ifs
    · simp only [flatMap_cons, append_assoc]
      exact Perm.append_left group perm_append_comm
    · simp only [flatMap_cons, append_assoc]
      exact Perm.append_left group ih

theorem perm_groupInOrder (key : α → κ) (pieces : List α) :
    ((groupInOrder key pieces).flatMap Prod.snd).Perm pieces := by
  induction pieces using reverseRecOn with
  | nil => exact .refl _
  | append_singleton pieces piece ih =>
    unfold groupInOrder
    rw [foldl_concat]
    exact (perm_addToGroup _ _ _).trans (ih.append_right [piece])

theorem key_of_mem_addToGroup {keyOf : α → κ} {piece : α}
    {groups : List (κ × List α)}
    (hgroups : ∀ group ∈ groups, ∀ member ∈ group.2, keyOf member = group.1) :
    ∀ group ∈ addToGroup (keyOf piece) piece groups, ∀ member ∈ group.2,
      keyOf member = group.1 := by
  induction groups with
  | nil =>
    intro group hgroup member hmember
    rw [mem_singleton.mp hgroup] at hmember ⊢
    rw [mem_singleton.mp hmember]
  | cons head groups ih =>
    intro group hgroup member hmember
    have hhead := hgroups head mem_cons_self
    have hrest := fun other hother =>
      hgroups other (mem_cons_of_mem _ hother)
    unfold addToGroup at hgroup
    split_ifs at hgroup with hkey
    · cases mem_cons.mp hgroup with
      | inl hfirst =>
        rw [hfirst] at hmember ⊢
        cases mem_append.mp hmember with
        | inl hold => exact hhead member hold
        | inr hnew =>
          rw [mem_singleton.mp hnew]
          exact hkey.symm
      | inr hlater => exact hrest group hlater member hmember
    · cases mem_cons.mp hgroup with
      | inl hfirst =>
        rw [hfirst] at hmember ⊢
        exact hhead member hmember
      | inr hlater => exact ih hrest group hlater member hmember

theorem key_of_mem_groupInOrder (key : α → κ) (pieces : List α) :
    ∀ group ∈ groupInOrder key pieces, ∀ member ∈ group.2,
      key member = group.1 := by
  induction pieces using reverseRecOn with
  | nil => exact fun _ hgroup => absurd hgroup not_mem_nil
  | append_singleton pieces piece ih =>
    unfold groupInOrder
    rw [foldl_concat]
    exact key_of_mem_addToGroup ih

end Groups

end VerlVla
