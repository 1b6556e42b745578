import Mathlib

/-!
# Slices and chunks of a batch

Parts joined to one batch are given back by the slices at their offsets.  The
chunks of a positive size cover the indices of a batch in order, the last one
cut at the end of the batch.
-/

namespace VerlVla

open List hiding cons count length nil

variable {α β : Type}

/-- The rows from the first position up to the second. -/
def sliceRows (slice : ℕ × ℕ) (rows : List α) : List α :=
  (rows.drop slice.1).take (slice.2 - slice.1)

/-- The slices of consecutive parts of the given lengths. -/
def slicesFrom (offset : ℕ) : List ℕ → List (ℕ × ℕ)
  | [] => []
  | length :: lengths =>
    (offset, offset + length) :: slicesFrom (offset + length) lengths

def chunkStarts (total size : ℕ) : List ℕ :=
  (range ((total + size - 1) / size)).map (· * size)

def chunkIndices (total size start : ℕ) : List ℕ :=
  range' start (min (start + size) total - start)

theorem length_slicesFrom (offset : ℕ) (lengths : List ℕ) :
    (slicesFrom offset lengths).length = lengths.length := by
  induction lengths generalizing offset with
  | nil => rfl
  | cons length lengths ih => simp [slicesFrom, ih]

theorem slicesFrom_append_singleton (offset : ℕ) (lengths : List ℕ)
    (length : ℕ) :
    slicesFrom offset (lengths ++ [length]) = slicesFrom offset lengths ++
      [(offset + lengths.sum, offset + lengths.sum + length)] := by
  induction lengths generalizing offset with
  | nil => simp [slicesFrom]
  | cons first lengths ih =>
    simp only [cons_append, slicesFrom, ih, sum_cons]
    rw [Nat.add_assoc offset first]

theorem map_sliceRows_append (before : List α) (parts : List (List α)) :
    (slicesFrom before.length (parts.map List.length)).map
        (fun slice => sliceRows slice (before ++ parts.flatten)) = parts := by
  induction parts generalizing before with
  | nil => rfl
  | cons part parts ih =>
    have hrest := ih (before ++ part)
    rw [length_append, append_assoc] at hrest
    rw [map_cons, slicesFrom, map_cons, flatten_cons, hrest]
    simp [sliceRows]

/-- The slices at their offsets give the parts of a batch back. -/
theorem map_sliceRows_flatten (parts : List (List α)) :
    (slicesFrom 0 (parts.map List.length)).map
        (fun slice => sliceRows slice parts.flatten) = parts := by
  have hparts := map_sliceRows_append [] parts
  simpa using hparts

theorem chunkIndices_full (hfits : start + size ≤ total) :
    chunkIndices total size start = range' start size := by
  rw [chunkIndices, Nat.min_eq_left hfits, Nat.add_sub_cancel_left]

theorem flatMap_chunkIndices_take (count : ℕ) (hcount : count * size ≤ total) :
    (range count).flatMap (fun index =>
        chunkIndices total size (index * size)) =
      range (count * size) := by
  induction count with
  | zero => simp
  | succ count ih =>
    rw [Nat.succ_mul] at hcount
    rw [range_succ, flatMap_append, ih (by omega),
      flatMap_singleton, chunkIndices_full hcount, Nat.succ_mul,
      range_eq_range', range_eq_range']
    have happend := range'_append_1 (s := 0) (m := count * size) (n := size)
    rw [Nat.zero_add] at happend
    exact happend

theorem flatMap_chunkIndices (hsize : 0 < size) :
    (chunkStarts total size).flatMap (chunkIndices total size) =
      range total := by
  rw [chunkStarts, flatMap_map]
  by_cases hrest : total % size = 0
  · have htotal : total / size * size = total :=
      Nat.div_mul_cancel (Nat.dvd_of_mod_eq_zero hrest)
    have hcount : (total + size - 1) / size = total / size := by
      have hlast : (size - 1) / size = 0 := Nat.div_eq_of_lt (by omega)
      have hsplit : total + size - 1 = size * (total / size) + (size - 1) := by
        rw [Nat.mul_comm, htotal]
        omega
      rw [hsplit, Nat.mul_add_div hsize, hlast, Nat.add_zero]
    rw [hcount, flatMap_chunkIndices_take _ htotal.le, htotal]
  · have hmod := Nat.div_add_mod total size
    have hlt := Nat.mod_lt total hsize
    have hcount : (total + size - 1) / size = total / size + 1 := by
      have hsplit : total + size - 1 =
          size * (total / size + 1) + (total % size - 1) := by
        rw [Nat.mul_add, Nat.mul_one]
        omega
      have hlast : (total % size - 1) / size = 0 := Nat.div_eq_of_lt (by omega)
      rw [hsplit, Nat.mul_add_div hsize, hlast, Nat.add_zero]
    rw [hcount, range_succ, flatMap_append,
      flatMap_chunkIndices_take _ (Nat.div_mul_le_self total size),
      flatMap_singleton]
    have hcomm := Nat.mul_comm size (total / size)
    have hlast : chunkIndices total size (total / size * size) =
        range' (total / size * size) (total % size) := by
      have hmin : min (total / size * size + size) total = total := by omega
      rw [chunkIndices, hmin]
      congr 1
      omega
    have happend := range'_append_1 (s := 0)
      (m := total / size * size) (n := total % size)
    rw [Nat.zero_add] at happend
    rw [hlast, range_eq_range', happend, range_eq_range']
    congr 1
    omega

theorem chunkStarts_lt (hsize : 0 < size)
    (hstart : start ∈ chunkStarts total size) : start < total := by
  obtain ⟨index, hindex, rfl⟩ := mem_map.mp hstart
  have hlt := mem_range.mp hindex
  have hle := (Nat.le_div_iff_mul_le hsize).mp (Nat.succ_le_of_lt hlt)
  rw [Nat.succ_mul] at hle
  omega

theorem length_chunkStarts_le (hsize : 0 < size) :
    (chunkStarts total size).length ≤ total := by
  rw [chunkStarts, length_map, length_range]
  have hle : total * 1 ≤ total * size := Nat.mul_le_mul_left total hsize
  have hlt : (total + size - 1) / size < total + 1 := by
    rw [Nat.div_lt_iff_lt_mul hsize, Nat.succ_mul]
    omega
  omega

theorem length_chunkStarts_pos (hsize : 0 < size) (htotal : 0 < total) :
    0 < (chunkStarts total size).length := by
  rw [chunkStarts, length_map, length_range]
  apply Nat.div_pos
  · omega
  · exact hsize

def splitRows (size : ℕ) (rows : List α) : List (List α) :=
  (chunkStarts rows.length size).map fun start =>
    sliceRows (start, start + size) rows

theorem flatMap_sliceRows (size count : ℕ) (rows : List α) :
    (range count).flatMap (fun index =>
        sliceRows (index * size, index * size + size) rows) =
      rows.take (count * size) := by
  induction count with
  | zero => simp
  | succ count ih =>
    rw [range_succ, flatMap_append, ih, flatMap_singleton,
      sliceRows, Nat.add_sub_cancel_left, Nat.succ_mul, take_add]

theorem flatten_splitRows (hsize : 0 < size) (rows : List α) :
    (splitRows size rows).flatten = rows := by
  have hcover : rows.length ≤ (rows.length + size - 1) / size * size := by
    have hsplit := Nat.div_add_mod (rows.length + size - 1) size
    have hrest := Nat.mod_lt (rows.length + size - 1) hsize
    rw [Nat.mul_comm] at hsplit
    omega
  rw [splitRows, chunkStarts, map_map, ← flatMap_def]
  exact (flatMap_sliceRows size _ rows).trans (take_of_length_le hcover)

theorem splitRows_map (size : ℕ) (f : α → β) (rows : List α) :
    splitRows size (rows.map f) = (splitRows size rows).map (List.map f) := by
  unfold splitRows
  rw [length_map, map_map]
  apply map_congr_left
  intro start _
  rw [Function.comp_apply, sliceRows, sliceRows, map_take, map_drop]

theorem splitRows_ne_nil (hsize : 0 < size)
    (hpart : part ∈ splitRows size rows) :
    part ≠ [] := by
  obtain ⟨start, hstart, rfl⟩ := mem_map.mp hpart
  have hlt := chunkStarts_lt hsize hstart
  apply ne_nil_of_length_pos
  rw [sliceRows, length_take, length_drop]
  omega

/-- Reading every position of a list reads the list. -/
theorem filterMap_range_getElem? (values : List α) (f : α → Option β) :
    (range values.length).filterMap
        (fun index => values[index]?.bind f) = values.filterMap f := by
  induction values with
  | nil => rfl
  | cons value values ih =>
    rw [length_cons, range_succ_eq_map, filterMap_cons,
      filterMap_map, filterMap_cons]
    have hrest : (range values.length).filterMap
        ((fun index => (value :: values)[index]?.bind f) ∘ Nat.succ) =
          values.filterMap f := by
      rw [← ih]
      rfl
    rw [hrest]
    rfl

end VerlVla
