import Mathlib.Data.List.Induction
import Mathlib.Data.List.Sort
import Mathlib.Data.Set.Function
import Mathlib.Tactic.Common

/-!
# Rows with keys

Rows are sorted by a key, grouped by a key, and looked up by a key.  If the
key tells the rows apart then none of these depends on the order in which the
rows were given, and what a part of the rows gives does not depend on the rest.
-/

namespace VerlVla

open List hiding cons groupByKey head nil

universe u v

variable {α : Type u} {κ : Type v}

/-! ## Sorting -/

section Sorting

variable [LinearOrder κ] (key : α → κ)

def sortByKey (rows : List α) : List α :=
  rows.insertionSort fun first second => key first ≤ key second

variable {key} {rows other : List α}

theorem sortByKey_perm : (sortByKey key rows).Perm rows :=
  perm_insertionSort _ _

@[simp] theorem mem_sortByKey : row ∈ sortByKey key rows ↔ row ∈ rows :=
  sortByKey_perm.mem_iff

theorem sortByKey_sorted : (sortByKey key rows).Pairwise
    fun first second => key first ≤ key second := by
  have htotal : Std.Total fun first second : α => key first ≤ key second :=
    ⟨fun first second => le_total (key first) (key second)⟩
  have htrans : IsTrans α fun first second => key first ≤ key second :=
    ⟨fun _ _ _ => le_trans⟩
  exact pairwise_insertionSort _ rows

section

variable (hkey : Set.InjOn key {row | row ∈ rows})

include hkey

theorem eq_sortByKey (hperm : other.Perm rows)
    (hsorted : other.Pairwise fun first second =>
      key first ≤ key second) : other = sortByKey key rows := by
  apply Perm.eq_of_pairwise _ hsorted sortByKey_sorted
    (hperm.trans sortByKey_perm.symm)
  intro first second hfirst hsecond hle hge
  apply hkey
  · exact hperm.mem_iff.mp hfirst
  · exact mem_sortByKey.mp hsecond
  · exact le_antisymm hle hge

/-- Rows in another order are sorted to the same list. -/
theorem sortByKey_of_perm (hperm : other.Perm rows) :
    sortByKey key other = sortByKey key rows :=
  eq_sortByKey hkey (sortByKey_perm.trans hperm) sortByKey_sorted

theorem filter_sortByKey (keep : α → Bool) :
    (sortByKey key rows).filter keep = sortByKey key (rows.filter keep) := by
  apply eq_sortByKey
  · intro first hfirst second hsecond heq
    exact hkey (mem_of_mem_filter hfirst) (mem_of_mem_filter hsecond) heq
  · exact sortByKey_perm.filter keep
  · exact sortByKey_sorted.filter keep

end

/-- Sorted rows are those below a key, those at it and those above it. -/
theorem split_of_sorted
    (hsorted : rows.Pairwise fun first second => key first ≤ key second)
    (label : κ) : rows = (rows.filter fun row => key row < label) ++
        ((rows.filter fun row => key row = label) ++
          rows.filter fun row => label < key row) := by
  induction rows with
  | nil => rfl
  | cons row rows ih =>
    obtain ⟨hbefore, hrest⟩ := pairwise_cons.mp hsorted
    have hsplit := ih hrest
    have hnone : ∀ bound : α → Prop, ∀ [DecidablePred bound],
        (∀ other ∈ rows, ¬bound other) →
          (rows.filter fun other => bound other) = [] := by
      intro bound _ hbound
      rw [filter_eq_nil_iff]
      intro other hother
      simpa using hbound other hother
    rcases lt_trichotomy (key row) label with hlt | heq | hgt
    · simp only [filter_cons, hlt, hlt.ne, hlt.not_gt, decide_true,
        decide_false, if_true, Bool.false_eq_true, if_false,
        cons_append]
      rw [← hsplit]
    · have hlow := hnone (fun other => key other < label)
        fun other hother => (heq ▸ hbefore other hother).not_gt
      rw [hlow, nil_append] at hsplit
      simp only [filter_cons, heq, lt_irrefl, decide_true,
        decide_false, if_true, Bool.false_eq_true, if_false,
        cons_append, hlow, nil_append]
      rw [← hsplit]
    · have hlow := hnone (fun other => key other < label)
        fun other hother => (hgt.le.trans (hbefore other hother)).not_gt
      have hequal := hnone (fun other => key other = label)
        fun other hother => (hgt.trans_le (hbefore other hother)).ne'
      rw [hlow, hequal, nil_append, nil_append] at hsplit
      simp only [filter_cons, hgt, hgt.ne', hgt.not_gt, decide_true,
        decide_false, if_true, Bool.false_eq_true, if_false, hlow, hequal,
        nil_append]
      rw [← hsplit]

end Sorting

/-! ## Grouping -/

section Grouping

variable [DecidableEq κ]

def appendToGroup (label : κ) (row : α) : List (κ × List α) → List (κ × List α)
  | [] => [(label, [row])]
  | (other, rows) :: groups =>
    if other = label then (other, rows ++ [row]) :: groups
    else (other, rows) :: appendToGroup label row groups

def groupByKey (key : α → κ) (rows : List α) : List (κ × List α) :=
  rows.foldl (fun groups row => appendToGroup (key row) row groups) []

variable {key : α → κ} {rows : List α} {label : κ} {row : α}
  {groups : List (κ × List α)}

theorem keys_appendToGroup : (appendToGroup label row groups).map Prod.fst =
    if label ∈ groups.map Prod.fst then groups.map Prod.fst
    else groups.map Prod.fst ++ [label] := by
  induction groups with
  | nil => simp [appendToGroup]
  | cons group groups ih =>
    by_cases hsame : group.1 = label
    · simp [appendToGroup, hsame]
    · rw [appendToGroup, if_neg hsame, map_cons, ih, map_cons]
      by_cases hlater : label ∈ groups.map Prod.fst
      · rw [if_pos hlater, if_pos (mem_cons_of_mem _ hlater)]
      · have hnone : label ∉ group.1 :: groups.map Prod.fst := by
          rw [mem_cons]
          rintro (heq | hmember)
          · exact hsame heq.symm
          · exact hlater hmember
        rw [if_neg hlater, if_neg hnone, cons_append]

theorem nodup_appendToGroup (hgroups : (groups.map Prod.fst).Nodup) :
    ((appendToGroup label row groups).map Prod.fst).Nodup := by
  rw [keys_appendToGroup]
  by_cases hknown : label ∈ groups.map Prod.fst
  · rw [if_pos hknown]
    exact hgroups
  · rw [if_neg hknown, nodup_append]
    refine ⟨hgroups, nodup_singleton _, ?_⟩
    intro first hfirst second hsecond heq
    rw [mem_singleton.mp hsecond] at heq
    exact hknown (heq ▸ hfirst)

theorem mem_appendToGroup (hgroups : (groups.map Prod.fst).Nodup) :
    (other, group) ∈ appendToGroup label row groups ↔
      (other ≠ label ∧ (other, group) ∈ groups) ∨
      other = label ∧ ∃ before, group = before ++ [row] ∧
        ((label, before) ∈ groups ∨
          before = [] ∧ label ∉ groups.map Prod.fst) := by
  induction groups with
  | nil =>
    simp only [appendToGroup, mem_singleton, Prod.mk.injEq,
      not_mem_nil, and_false, false_or, map_nil,
      not_false_eq_true, and_true, exists_eq_right, nil_append]
  | cons head groups ih =>
    rw [map_cons, nodup_cons] at hgroups
    have hrest := ih hgroups.2
    by_cases hsame : head.1 = label
    · have hfresh : ∀ before, (label, before) ∉ groups := by
        intro before hmember
        apply hgroups.1
        rw [hsame]
        exact mem_map_of_mem hmember
      rw [appendToGroup, if_pos hsame, mem_cons, Prod.mk.injEq, hsame]
      constructor
      · rintro (⟨hother, hgroup⟩ | hlater)
        · right
          refine ⟨hother, head.2, hgroup, .inl ?_⟩
          rw [← hsame]
          exact mem_cons_self
        · by_cases hother : other = label
          · rw [hother] at hlater
            exact absurd hlater (hfresh _)
          · exact .inl ⟨hother, mem_cons_of_mem _ hlater⟩
      · rintro (⟨hother, hmember⟩ | ⟨hother, before, hgroup, hbefore⟩)
        · rcases mem_cons.mp hmember with heq | hlater
          · exact absurd ((congrArg Prod.fst heq).trans hsame) hother
          · exact .inr hlater
        · left
          refine ⟨hother, ?_⟩
          rcases hbefore with hmember | ⟨_, hunknown⟩
          · rcases mem_cons.mp hmember with heq | hlater
            · rw [hgroup, ← heq]
            · exact absurd hlater (hfresh _)
          · rw [map_cons, hsame] at hunknown
            exact absurd mem_cons_self hunknown
    · rw [appendToGroup, if_neg hsame, mem_cons, hrest]
      constructor
      · rintro (heq | ⟨hother, hmember⟩ | ⟨hother, before, hgroup, hbefore⟩)
        · left
          refine ⟨?_, heq ▸ mem_cons_self⟩
          intro hother
          exact hsame ((congrArg Prod.fst heq).symm.trans hother)
        · exact .inl ⟨hother, mem_cons_of_mem _ hmember⟩
        · right
          refine ⟨hother, before, hgroup, ?_⟩
          rcases hbefore with hmember | ⟨hnil, hunknown⟩
          · exact .inl (mem_cons_of_mem _ hmember)
          · right
            refine ⟨hnil, ?_⟩
            rw [map_cons, mem_cons]
            rintro (heq | hmember)
            · exact hsame heq.symm
            · exact hunknown hmember
      · rintro (⟨hother, hmember⟩ | ⟨hother, before, hgroup, hbefore⟩)
        · rcases mem_cons.mp hmember with heq | hlater
          · exact .inl heq
          · exact .inr (.inl ⟨hother, hlater⟩)
        · right
          right
          refine ⟨hother, before, hgroup, ?_⟩
          rcases hbefore with hmember | ⟨hnil, hunknown⟩
          · rcases mem_cons.mp hmember with heq | hlater
            · exact absurd (congrArg Prod.fst heq).symm hsame
            · exact .inl hlater
          · right
            refine ⟨hnil, ?_⟩
            intro hmember
            apply hunknown
            rw [map_cons]
            exact mem_cons_of_mem _ hmember

theorem groupByKey_append (rows : List α) (row : α) :
    groupByKey key (rows ++ [row]) =
      appendToGroup (key row) row (groupByKey key rows) := by
  rw [groupByKey, foldl_append]
  rfl

theorem nodup_groupByKey (rows : List α) :
    ((groupByKey key rows).map Prod.fst).Nodup := by
  induction rows using reverseRecOn with
  | nil => exact nodup_nil
  | append_singleton rows row ih =>
    rw [groupByKey_append]
    exact nodup_appendToGroup ih

/-- The groups are the rows with each key that occurs. -/
theorem mem_groupByKey : (label, group) ∈ groupByKey key rows ↔
      group ≠ [] ∧ group = rows.filter fun row => key row = label := by
  induction rows using reverseRecOn generalizing label group with
  | nil =>
    constructor
    · exact nofun
    · rintro ⟨hne, hnil⟩
      exact absurd hnil hne
  | append_singleton rows row ih =>
    rw [groupByKey_append, mem_appendToGroup (nodup_groupByKey rows),
      filter_append]
    by_cases hlabel : label = key row
    · have hfilter : ([row].filter fun row => key row = label) = [row] := by
        simp [hlabel]
      rw [hfilter]
      constructor
      · rintro (⟨hother, _⟩ | ⟨_, before, hgroup, hbefore⟩)
        · exact absurd hlabel hother
        · have hrows : before = rows.filter fun row => key row = label := by
            rcases hbefore with hmember | ⟨hnil, hunknown⟩
            · rw [← hlabel, ih] at hmember
              exact hmember.2
            · rw [hnil]
              symm
              by_contra hsome
              apply hunknown
              rw [← hlabel]
              exact mem_map_of_mem (ih.mpr ⟨hsome, rfl⟩)
          rw [hgroup, hrows]
          exact ⟨by simp, rfl⟩
      · rintro ⟨_, hgroup⟩
        right
        refine ⟨hlabel, _, hgroup, ?_⟩
        by_cases hnone : (rows.filter fun row => key row = label) = []
        · right
          refine ⟨hnone, ?_⟩
          intro hknown
          obtain ⟨⟨other, found⟩, hmember, hother⟩ := mem_map.mp hknown
          have hsame : other = label := hother.trans hlabel.symm
          rw [hsame, ih] at hmember
          exact hmember.1 (hmember.2.trans hnone)
        · left
          rw [← hlabel]
          exact ih.mpr ⟨hnone, rfl⟩
    · have hfilter : ([row].filter fun row => key row = label) = [] := by
        simp [Ne.symm hlabel]
      rw [hfilter, append_nil, ih]
      constructor
      · rintro (⟨_, hmember⟩ | ⟨hother, _⟩)
        · exact hmember
        · exact absurd hother hlabel
      · intro hmember
        exact .inl ⟨hlabel, hmember⟩

theorem perm_appendToGroup :
    ((appendToGroup label row groups).flatMap Prod.snd).Perm
      (row :: groups.flatMap Prod.snd) := by
  induction groups with
  | nil => exact Perm.refl _
  | cons group groups ih =>
    by_cases hsame : group.1 = label
    · rw [appendToGroup, if_pos hsame, flatMap_cons,
        flatMap_cons, append_assoc, singleton_append]
      exact perm_middle
    · rw [appendToGroup, if_neg hsame, flatMap_cons, flatMap_cons]
      exact (ih.append_left group.2).trans perm_middle

/-- The groups hold the rows, each once. -/
theorem perm_groupByKey (rows : List α) :
    ((groupByKey key rows).flatMap Prod.snd).Perm rows := by
  induction rows using reverseRecOn with
  | nil => exact Perm.refl _
  | append_singleton rows row ih =>
    rw [groupByKey_append]
    exact perm_appendToGroup.trans
      ((ih.cons row).trans (perm_append_singleton row rows).symm)

end Grouping

/-! ## Looking up -/

def lastValue {β : Type v} [DecidableEq α] (entries : List (α × β))
    (label : α) : Option β :=
  entries.reverse.lookup label

section

variable {β : Type v} [DecidableEq α] {entries : List (α × β)}
  (hkeys : (entries.map Prod.fst).Nodup) {label : α} {value : β}
  (hentry : (label, value) ∈ entries)

include hkeys hentry

theorem lookup_of_mem : entries.lookup label = some value := by
  induction entries with
  | nil => cases hentry
  | cons entry entries ih =>
    rw [map_cons, nodup_cons] at hkeys
    rcases mem_cons.mp hentry with heq | hlater
    · rw [← heq, lookup_cons_self]
    · have hother : label ≠ entry.1 := by
        intro heq
        apply hkeys.1
        rw [← heq]
        exact mem_map_of_mem hlater
      rw [lookup_cons, beq_false_of_ne hother]
      exact ih hkeys.2 hlater

/-- Keys written once keep their values. -/
theorem lastValue_of_mem : lastValue entries label = some value := by
  apply lookup_of_mem
  · rw [map_reverse]
    exact nodup_reverse.mpr hkeys
  · exact mem_reverse.mpr hentry

end

theorem exists_lastValue {β : Type v} [DecidableEq α] {entries : List (α × β)}
    (hlabel : label ∈ entries.map Prod.fst) :
    ∃ value, lastValue entries label = some value ∧
      (label, value) ∈ entries := by
  have hreversed : label ∈ entries.reverse.map Prod.fst := by
    rw [map_reverse]
    exact mem_reverse.mpr hlabel
  have hfound : ∀ list : List (α × β), label ∈ list.map Prod.fst →
      ∃ value, list.lookup label = some value ∧ (label, value) ∈ list := by
    intro list hlist
    induction list with
    | nil => cases hlist
    | cons entry list ih =>
      by_cases hsame : label = entry.1
      · refine ⟨entry.2, ?_, ?_⟩
        · rw [hsame, lookup_cons_self]
        · rw [hsame]
          exact mem_cons_self
      · have hrest := (mem_cons.mp hlist).resolve_left hsame
        obtain ⟨value, hvalue, hmember⟩ := ih hrest
        refine ⟨value, ?_, mem_cons_of_mem _ hmember⟩
        rw [lookup_cons, beq_false_of_ne hsame]
        exact hvalue
  obtain ⟨value, hvalue, hmember⟩ := hfound _ hreversed
  exact ⟨value, hvalue, mem_reverse.mp hmember⟩

end VerlVla
