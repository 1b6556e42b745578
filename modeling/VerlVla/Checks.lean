import Mathlib.Data.List.Forall2
import Mathlib.Tactic.Common

/-!
# Checks that raise

A check of the source raises an error or lets the computation continue.  The
lemmas read off, from a computation that returned, that each of its checks
passed and that each of its parts returned.
-/

namespace VerlVla

open List hiding cons nil

variable {ε α β : Type}

/-- Continue if the condition holds, raise the error otherwise. -/
def require (condition : Prop) [Decidable condition] (error : ε) :
    Except ε Unit :=
  if condition then .ok () else .error error

@[simp] theorem require_eq_ok {condition : Prop} [Decidable condition] :
    require condition error = .ok result ↔ condition := by
  unfold require
  split_ifs with hcondition <;> simp [hcondition]

theorem require_of {condition : Prop} [Decidable condition]
    (hcondition : condition) (error : ε) :
    require condition error = .ok () :=
  if_pos hcondition

/-- A sequence returned exactly if both of its parts did. -/
@[simp] theorem bind_eq_ok {first : Except ε α}
    {rest : α → Except ε β} {result : β} :
    (first >>= rest) = .ok result ↔
      ∃ value, first = .ok value ∧ rest value = .ok result := by
  cases first <;> simp [bind, Except.bind]

theorem require_bind_eq_ok {condition : Prop}
    [Decidable condition] {error : ε} {rest : Unit → Except ε β}
    {result : β} :
    (require condition error >>= rest) = .ok result ↔
      condition ∧ rest () = .ok result := by
  by_cases hcondition : condition <;>
    simp [require, hcondition, bind, Except.bind]

theorem require_eq_error {condition : Prop} [Decidable condition] :
    require condition error = .error other ↔ ¬condition ∧ error = other := by
  unfold require
  split_ifs with hcondition <;> simp [hcondition]

theorem bind_eq_error {first : Except ε α} {rest : α → Except ε β}
    {error : ε} :
    (first >>= rest) = .error error ↔ first = .error error ∨
      ∃ value, first = .ok value ∧ rest value = .error error := by
  cases first <;> simp [bind, Except.bind]

/-- A computation that is known to return returns its value. -/
theorem ok_get_toOption {computation : Except ε α}
    (hsome : computation.toOption.isSome) :
    computation = .ok (computation.toOption.get hsome) := by
  cases computation with
  | error error => cases hsome
  | ok value => rfl

theorem exists_eq_ok {computation : Except ε α}
    (hok : computation.isOk = true) : ∃ value, computation = .ok value := by
  cases h : computation with
  | error error => simp [h, Except.isOk, Except.toBool] at hok
  | ok value => exact ⟨value, rfl⟩

theorem map_eq_ok {first : Except ε α} {f : α → β} : first.map f = .ok result ↔
      ∃ value, first = .ok value ∧ f value = result := by
  cases first <;> simp [Except.map]

theorem map_eq_error {first : Except ε α} {f : α → β} :
    first.map f = .error error ↔ first = .error error := by
  cases first <;> simp [Except.map]

theorem mapM_eq_error {f : α → Except ε β} {items : List α} {error : ε}
    (herror : items.mapM f = .error error) :
    ∃ item ∈ items, f item = .error error := by
  induction items with
  | nil => cases herror
  | cons item items ih =>
    rw [mapM_cons, bind_eq_error] at herror
    rcases herror with hitem | ⟨value, _, hrest⟩
    · exact ⟨item, mem_cons_self, hitem⟩
    · rcases bind_eq_error.mp hrest with hitems | ⟨values, _, hpure⟩
      · obtain ⟨other, hother, hfailed⟩ := ih hitems
        exact ⟨other, mem_cons_of_mem item hother, hfailed⟩
      · cases hpure

theorem forM_eq_error {f : α → Except ε Unit} {items : List α} {error : ε}
    (herror : items.forM f = .error error) :
    ∃ item ∈ items, f item = .error error := by
  induction items with
  | nil => cases herror
  | cons item items ih =>
    change (f item >>= fun _ => items.forM f) = .error error at herror
    rw [bind_eq_error] at herror
    rcases herror with hitem | ⟨_, _, hitems⟩
    · exact ⟨item, mem_cons_self, hitem⟩
    · obtain ⟨other, hother, hfailed⟩ := ih hitems
      exact ⟨other, mem_cons_of_mem item hother, hfailed⟩

theorem forM_eq_ok {f : α → Except ε Unit} {items : List α} {result : Unit}
    (hresult : items.forM f = .ok result) {item : α} (hitem : item ∈ items) :
    f item = .ok () := by
  induction items with
  | nil => cases hitem
  | cons first items ih =>
    change (f first >>= fun _ => items.forM f) = .ok result at hresult
    obtain ⟨_, hfirst, hrest⟩ := bind_eq_ok.mp hresult
    rcases mem_cons.mp hitem with rfl | hitems
    · exact hfirst
    · exact ih hrest hitems

/-- A list of computations returned exactly if each of them did. -/
theorem mapM_eq_ok {f : α → Except ε β} {items : List α}
    {values : List β} :
    items.mapM f = .ok values ↔
      Forall₂ (fun item value => f item = .ok value) items values := by
  induction items generalizing values with
  | nil =>
    rw [forall₂_nil_left_iff, mapM_nil]
    constructor
    · intro hvalues
      cases hvalues
      rfl
    · rintro rfl
      rfl
  | cons item items ih =>
    rw [mapM_cons, bind_eq_ok, forall₂_cons_left_iff]
    constructor
    · rintro ⟨value, hvalue, hrest⟩
      obtain ⟨rest, hitems, hpure⟩ := bind_eq_ok.mp hrest
      cases hpure
      exact ⟨value, rest, hvalue, ih.mp hitems, rfl⟩
    · rintro ⟨value, rest, hvalue, hitems, rfl⟩
      refine ⟨value, hvalue, ?_⟩
      rw [ih.mpr hitems]
      rfl

theorem mapM_eq_ok_map_iff {f : α → Except ε β} {items : List α}
    {g : α → β} : items.mapM f = .ok (items.map g) ↔
      ∀ item ∈ items, f item = .ok (g item) := by
  rw [mapM_eq_ok, forall₂_map_right_iff, forall₂_same]

theorem mapM_eq_ok_map {f : α → Except ε β} {items : List α} {g : α → β}
    (hitems : ∀ item ∈ items, f item = .ok (g item)) :
    items.mapM f = .ok (items.map g) :=
  mapM_eq_ok_map_iff.mpr hitems

theorem eq_map_of_mapM_eq_ok {f : α → Except ε β} {items : List α} {g : α → β}
    (hitems : ∀ item value, f item = .ok value → value = g item)
    (hvalues : items.mapM f = .ok values) : values = items.map g := by
  have hall := mapM_eq_ok.mp hvalues
  clear hvalues
  induction hall with
  | nil => rfl
  | cons hfirst _ ih =>
    rw [map_cons, ← ih, hitems _ _ hfirst]

theorem mem_of_mapM_eq_ok {f : α → Except ε β} {items : List α}
    (hvalues : items.mapM f = .ok values) (hvalue : value ∈ values) :
    ∃ item ∈ items, f item = .ok value := by
  have hall := mapM_eq_ok.mp hvalues
  clear hvalues
  induction hall with
  | nil => cases hvalue
  | @cons item first items rest hfirst _ ih =>
    rcases mem_cons.mp hvalue with rfl | hrest
    · exact ⟨item, mem_cons_self, hfirst⟩
    · obtain ⟨other, hother, hok⟩ := ih hrest
      exact ⟨other, mem_cons_of_mem item hother, hok⟩

theorem mapError_eq_ok {γ : Type} {first : Except ε α} {f : ε → γ} :
    first.mapError f = .ok result ↔ first = .ok result := by
  cases first <;> simp [Except.mapError]

theorem mapError_eq_error {γ : Type} {first : Except ε α} {f : ε → γ} {error : γ} :
    first.mapError f = .error error ↔
      ∃ cause, first = .error cause ∧ f cause = error := by
  cases first <;> simp [Except.mapError]

end VerlVla
