import Mathlib.Data.List.Rotate
import Mathlib.Tactic.Common

/-!
# Ring buffers

A ring keeps the most recent items of everything that was inserted.  Item
number `j` is written to cell `j % capacity` and stays there until item number
`j + capacity` replaces it.
-/

namespace VerlVla

open List hiding cons length nil

variable {α : Type}

structure Ring (α : Type) where
  cells : List α
  size : ℕ
  position : ℕ

namespace Ring

def create [Inhabited α] (capacity : ℕ) : Ring α where
  cells := replicate capacity default
  size := 0
  position := 0

/-- The cells that hold items. -/
def stored (ring : Ring α) : List α := ring.cells.take ring.size

def indexCopy (cells : List α) (indices : List ℕ) (items : List α) : List α :=
  (indices.zip items).foldl (fun cells write => cells.set write.1 write.2)
    cells

/-- Insert a block; only its first `capacity` items are written. -/
def insert (capacity : ℕ) (ring : Ring α) (items : List α) : Ring α :=
  let length := min items.length capacity
  { cells := indexCopy ring.cells
      ((range length).map fun i => (ring.position + i) % capacity)
      (items.take length)
    size := min (ring.size + length) capacity
    position := (ring.position + length) % capacity }

/-! ## What a ring holds -/

/-- The cells hold the last `capacity` items of the history. -/
def Recent (capacity : ℕ) (cells history : List α) : Prop :=
  ∀ (j : ℕ) (hj : j < history.length), history.length ≤ j + capacity →
    cells[j % capacity]? = some history[j]

structure Holds (capacity : ℕ) (ring : Ring α) (history : List α) : Prop where
  cells : ring.cells.length = capacity
  size : ring.size = min capacity history.length
  position : ring.position = history.length % capacity
  recent : Recent capacity ring.cells history

section Holds

theorem holds_create [Inhabited α] (capacity : ℕ) :
    Holds capacity (create capacity : Ring α) [] := by
  constructor
  case cells => exact length_replicate
  case size => simp [create]
  case position => simp [create]
  case recent =>
    intro j hj
    simp at hj

theorem mod_ne_mod {j n : ℕ} (hj : j < n) (hrecent : n < j + capacity) :
    j % capacity ≠ n % capacity := by
  intro hmod
  have hdvd : capacity ∣ n - j :=
    Nat.dvd_of_mod_eq_zero (Nat.sub_mod_eq_zero_of_mod_eq hmod.symm)
  have hle := Nat.le_of_dvd (by omega) hdvd
  omega

theorem Recent.push {cells history : List α} (item : α)
    (hcells : cells.length = capacity) (hcapacity : 0 < capacity)
    (hrecent : Recent capacity cells history) :
    Recent capacity (cells.set (history.length % capacity) item)
      (history ++ [item]) := by
  intro j hj hwithin
  rw [length_append, length_singleton] at hj hwithin
  by_cases hlast : j = history.length
  · subst hlast
    have hindex : history.length % capacity < cells.length := by
      rw [hcells]
      exact Nat.mod_lt _ hcapacity
    rw [getElem?_set_self hindex, getElem_append_right (le_refl _)]
    simp
  · have hold : j < history.length := by omega
    have hne := mod_ne_mod hold (show history.length < j + capacity by omega)
    rw [getElem?_set_ne (Ne.symm hne), hrecent j hold (by omega),
      getElem_append_left hold]

theorem Recent.indexCopy {cells history items : List α}
    (hcells : cells.length = capacity) (hcapacity : 0 < capacity)
    (hrecent : Recent capacity cells history) :
    Recent capacity (Ring.indexCopy cells ((range items.length).map fun i =>
        (history.length + i) % capacity) items) (history ++ items) := by
  induction items generalizing cells history with
  | nil => simpa [Ring.indexCopy] using hrecent
  | cons item items ih =>
    have hpush := hrecent.push item hcells hcapacity
    have hlater := ih (by rw [length_set]; exact hcells) hpush
    rw [append_assoc, singleton_append] at hlater
    have hindices : ((range (item :: items).length).map fun i =>
        (history.length + i) % capacity) =
        history.length % capacity :: (range items.length).map fun i =>
          ((history ++ [item]).length + i) % capacity := by
      rw [length_cons, range_succ_eq_map, map_cons, map_map, Nat.add_zero]
      congr 1
      apply map_congr_left
      intro i _
      have hshift : history.length + (i + 1) =
          history.length + 1 + i := by omega
      simp only [Function.comp_apply, Nat.succ_eq_add_one, hshift,
        length_append, length_singleton]
    rw [hindices]
    exact hlater

theorem length_indexCopy (cells : List α) (indices : List ℕ) (items : List α) :
    (indexCopy cells indices items).length = cells.length := by
  unfold indexCopy
  induction indices.zip items generalizing cells with
  | nil => rfl
  | cons write writes ih =>
    rw [foldl_cons, ih, length_set]

theorem Holds.insert (items : List α) (hcapacity : 0 < capacity)
    (hholds : Holds capacity ring history) :
    Holds capacity (ring.insert capacity items)
      (history ++ items.take capacity) := by
  have htake : items.take (min items.length capacity) =
      items.take capacity := by
    rw [Nat.min_comm, ← take_take, take_length]
  have hlength : (items.take capacity).length = min items.length capacity := by
    rw [length_take, Nat.min_comm]
  constructor
  case cells =>
    rw [Ring.insert, length_indexCopy]
    exact hholds.cells
  case size =>
    show min (ring.size + min items.length capacity) capacity = _
    rw [length_append, hlength, hholds.size]
    omega
  case position =>
    rw [length_append, hlength, Ring.insert, hholds.position]
    exact Nat.mod_add_mod _ _ _
  case recent =>
    have hindices : ((range (min items.length capacity)).map fun i =>
        (ring.position + i) % capacity) =
        (range (items.take capacity).length).map fun i =>
          (history.length + i) % capacity := by
      rw [hlength, hholds.position]
      apply map_congr_left
      intro i _
      exact Nat.mod_add_mod _ _ _
    show Recent capacity (Ring.indexCopy ring.cells _ _) _
    rw [hindices, htake]
    exact hholds.recent.indexCopy hholds.cells hcapacity

/-- The stored cells are the last items of the history, rotated by the write
position. -/
theorem Holds.stored (hcapacity : 0 < capacity)
    (hholds : Holds capacity ring history) :
    ring.stored = (history.drop (history.length - capacity)).rotate
      (ring.size - ring.position) := by
  have hsize := hholds.size
  have hposition := hholds.position
  apply ext_getElem
  · rw [Ring.stored, length_take, length_rotate, length_drop,
      hholds.cells, hsize]
    omega
  · intro i hi hrotated
    rw [Ring.stored, length_take, hholds.cells] at hi
    rw [getElem_rotate, getElem_drop]
    apply Option.some.inj
    rw [← getElem?_eq_getElem, Ring.stored, getElem?_take_of_lt (by omega)]
    have hdrop : (history.drop (history.length - capacity)).length =
        ring.size := by
      rw [length_drop, hsize]
      omega
    have hsizePos : 0 < ring.size := by omega
    have hwithin : (i + (ring.size - ring.position)) %
        (history.drop (history.length - capacity)).length < ring.size := by
      rw [hdrop]
      exact Nat.mod_lt _ hsizePos
    have hlookup := hholds.recent (history.length - capacity +
      (i + (ring.size - ring.position)) %
        (history.drop (history.length - capacity)).length)
      (by omega) (by omega)
    rw [← hlookup]
    congr 1
    rw [hdrop]
    by_cases hfull : history.length < capacity
    · have hall : ring.size = history.length := by omega
      have hat : ring.position = history.length := by
        rw [hposition, Nat.mod_eq_of_lt hfull]
      rw [hall, hat, Nat.sub_self, Nat.add_zero,
        Nat.mod_eq_of_lt (show i < history.length by omega),
        Nat.sub_eq_zero_of_le hfull.le, Nat.zero_add,
        Nat.mod_eq_of_lt (show i < capacity by omega)]
    · have hall : ring.size = capacity := by omega
      have hmod := Nat.mod_add_div history.length capacity
      have hlt := Nat.mod_lt history.length hcapacity
      rw [hall, hposition, Nat.add_mod_mod]
      have hsum : history.length - capacity +
          (i + (capacity - history.length % capacity)) =
          i + capacity * (history.length / capacity) := by omega
      rw [hsum, Nat.add_mul_mod_self_left,
        Nat.mod_eq_of_lt (show i < capacity by omega)]

theorem Holds.stored_perm (hcapacity : 0 < capacity)
    (hholds : Holds capacity ring history) :
    ring.stored.Perm (history.drop (history.length - capacity)) := by
  rw [hholds.stored hcapacity]
  exact rotate_perm _ _

end Holds

end Ring
end VerlVla
