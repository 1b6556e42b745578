import Mathlib.Data.Int.CardIntervalMod
import Mathlib.Data.List.Range
import Mathlib.Tactic.Common

/-!
# Blocks of consecutive indices

Independent shards that each take one block of consecutive indices cover an
interval of indices, each once.  Read modulo a length, an initial interval
meets the residues in turn.
-/

namespace VerlVla

open List hiding cons count length nil

variable {α : Type}

def block (size index : ℕ) (rows : List α) : List α :=
  (rows.drop (index * size)).take size

theorem block_map {β : Type} (f : α → β) (size index : ℕ) (rows : List α) :
    block size index (rows.map f) = (block size index rows).map f := by
  simp [block, map_take, map_drop]

theorem block_range' (hfits : (index + 1) * size ≤ count) :
    block size index (range' start count) =
      range' (start + index * size) size := by
  have hsum : (index + 1) * size = index * size + size := by ring
  have hrest : size ≤ count - index * size := by omega
  unfold block
  rw [drop_range', take_range'_of_length_ge hrest, mul_one]

/-- Consecutive blocks, one after another, are one interval. -/
theorem flatMap_blocks (start width count : ℕ) :
    ((range count).flatMap fun index =>
        range' (start + index * width) width) =
      range' start (count * width) := by
  induction count with
  | zero => simp
  | succ count ih =>
    have hwidth : (count + 1) * width = count * width + width := by ring
    rw [range_succ, flatMap_append, ih, hwidth]
    simp [range'_append_1]

section Parts

theorem length_block (hrows : rows.length = count * size)
    (hindex : index < count) : (block size index rows).length = size := by
  have hfits : (index + 1) * size ≤ count * size :=
    Nat.mul_le_mul_right size hindex
  rw [Nat.add_mul, Nat.one_mul] at hfits
  rw [block, length_take, length_drop, hrows]
  omega

theorem block_getElem? (rows : List α) (index : ℕ) (hoffset : offset < size) :
    (block size index rows)[offset]? = rows[index * size + offset]? := by
  rw [block, getElem?_take_of_lt hoffset, getElem?_drop]

theorem flatten_blocks (hrows : rows.length = count * size) :
    ((range count).map fun index => block size index rows).flatten = rows := by
  have htake : ∀ parts ≤ count,
      ((range parts).map fun index => block size index rows).flatten =
        rows.take (parts * size) := by
    intro parts hparts
    induction parts with
    | zero => simp
    | succ parts ih =>
      rw [range_succ, map_append, flatten_append,
        ih (by omega), map_singleton, flatten_singleton, block,
        Nat.add_mul, Nat.one_mul, take_add]
  rw [htake count le_rfl, ← hrows, take_length]

theorem block_flatMap {part : ℕ → List α}
    (hparts : ∀ index < count, (part index).length = size) {index : ℕ}
    (hindex : index < count) :
    block size index ((range count).flatMap part) = part index := by
  induction count with
  | zero => cases hindex
  | succ count ih =>
    have hbefore : ((range count).flatMap part).length = count * size := by
      have hlengths : ∀ parts ≤ count,
          ((range parts).flatMap part).length = parts * size := by
        intro parts hle
        induction parts with
        | zero => simp
        | succ parts ihParts =>
          rw [range_succ, flatMap_append, length_append,
            ihParts (by omega), flatMap_singleton,
            hparts parts (by omega), Nat.add_mul, Nat.one_mul]
      exact hlengths count le_rfl
    rw [range_succ, flatMap_append, flatMap_singleton]
    by_cases hlast : index = count
    · rw [hlast, block, ← hbefore, drop_left,
        take_of_length_le (hparts count (by omega)).le]
    · have hlt : index < count := by omega
      have hfits : (index + 1) * size ≤ count * size :=
        Nat.mul_le_mul_right size hlt
      rw [Nat.add_mul, Nat.one_mul] at hfits
      rw [block, drop_append_of_le_length (by omega),
        take_append_of_le_length (by
          rw [length_drop, hbefore]
          omega)]
      exact ih (fun other hother => hparts other (by omega)) hlt

end Parts

theorem getElem?_flatten_of_length {rows : List (List α)} (hwidth : 0 < width)
    (hrows : ∀ row ∈ rows, row.length = width) (position : ℕ) :
    rows.flatten[position]? =
      rows[position / width]?.bind fun row => row[position % width]? := by
  induction rows generalizing position with
  | nil => simp
  | cons row rows ih =>
    have hrow := hrows row mem_cons_self
    have hrest := ih fun other hother =>
      hrows other (mem_cons_of_mem _ hother)
    rw [flatten_cons]
    by_cases hfirst : position < width
    · rw [getElem?_append_left (by omega), Nat.div_eq_of_lt hfirst,
        Nat.mod_eq_of_lt hfirst]
      rfl
    · have hlater : width ≤ position := by omega
      rw [getElem?_append_right (by omega), hrow,
        hrest (position - width), Nat.mod_eq_sub_mod hlater]
      have hdiv : position / width = (position - width) / width + 1 := by
        rw [Nat.div_eq_sub_div hwidth hlater]
      rw [hdiv, getElem?_cons_succ]

theorem count_residue (bound residue : ℕ) (hresidue : residue < length) :
    ((range bound).map (· % length)).count residue =
      bound / length + if residue < bound % length then 1 else 0 := by
  have hlength : 0 < length := by omega
  have hcount := Nat.count_modEq_card bound hlength residue
  rw [Nat.mod_eq_of_lt hresidue] at hcount
  rw [← hcount, count_eq_countP, countP_map, Nat.count]
  apply countP_congr
  intro index _
  simp [Nat.ModEq, Nat.mod_eq_of_lt hresidue]

end VerlVla
