import Mathlib
import VerlVla.Checks

/-!
# Dictionaries and tensors

A dictionary is an association list without repeated keys.  A tensor is a shape
together with the entry at every multi-index; an entry outside the shape is
never read.  A row of a tensor is again a tensor, and the operations that move
whole rows are described by where each of their rows comes from.
-/

namespace VerlVla

open List hiding after cons map modify nil tail

abbrev Dict (α : Type) : Type := AList (fun _ : String => α)

namespace Dict

variable {α β ε : Type}

def map (f : String → α → β) (dict : Dict α) : Dict β where
  entries := dict.entries.map fun entry => ⟨entry.1, f entry.1 entry.2⟩
  nodupKeys := by
    have hkeys : (dict.entries.map fun entry =>
        (⟨entry.1, f entry.1 entry.2⟩ : Σ _ : String, β)).keys =
          dict.entries.keys := by
      simp [List.keys, Function.comp_def]
    rw [NodupKeys, hkeys]
    exact dict.nodupKeys

@[simp] theorem lookup_map (f : String → α → β) (dict : Dict α)
    (key : String) :
    (dict.map f).lookup key = (dict.lookup key).map (f key) :=
  dlookup_map₂ key

/-- Add the key at the end unless it is present. -/
def setDefault (dict : Dict α) (key : String) (value : α) : Dict α :=
  dict ∪ AList.singleton key value

theorem lookup_setDefault (dict : Dict α) (key other : String) (value : α) :
    (dict.setDefault key value).lookup other =
      if other = key then some ((dict.lookup key).getD value)
      else dict.lookup other := by
  unfold setDefault
  by_cases hmem : other ∈ dict
  · rw [AList.lookup_union_left hmem]
    obtain ⟨found, hfound⟩ :=
      Option.isSome_iff_exists.mp (AList.lookup_isSome.mpr hmem)
    by_cases hother : other = key
    · subst hother
      simp [hfound]
    · rw [if_neg hother]
  · rw [AList.lookup_union_right hmem]
    have hnone : dict.lookup other = none := AList.lookup_eq_none.mpr hmem
    by_cases hother : other = key
    · subst hother
      rw [if_pos rfl, hnone]
      simp [AList.singleton, AList.lookup]
    · rw [if_neg hother, hnone]
      simp [AList.singleton, AList.lookup, dlookup_cons_ne, hother]

/-- Change the value of a key in place. -/
def modify (key : String) (f : α → α) (dict : Dict α) : Dict α :=
  dict.map fun name value => if name = key then f value else value

theorem lookup_modify (key other : String) (f : α → α) (dict : Dict α) :
    (dict.modify key f).lookup other =
      if other = key then (dict.lookup key).map f
      else dict.lookup other := by
  unfold modify
  rw [lookup_map]
  by_cases hother : other = key
  · subst hother
    simp
  · rw [if_neg hother]
    cases dict.lookup other with
    | none => rfl
    | some value => simp [hother]

def restrict (keep : String → Bool) (dict : Dict α) : Dict α where
  entries := dict.entries.filter fun entry => keep entry.1
  nodupKeys := dict.nodupKeys.sublist filter_sublist

theorem lookup_restrict (dict : Dict α) (hkeep : keep key) :
    (dict.restrict keep).lookup key = dict.lookup key := by
  obtain ⟨entries, hnodup⟩ := dict
  show dlookup key (entries.filter _) = dlookup key entries
  clear hnodup
  induction entries with
  | nil => rfl
  | cons entry entries ih =>
    obtain ⟨name, value⟩ := entry
    by_cases hname : key = name
    · subst hname
      simp [hkeep]
    · by_cases hother : keep name
      · simp [hother, dlookup_cons_ne, hname, ih]
      · simp [hother, dlookup_cons_ne, hname, ih]

theorem lookup_restrict_eq_none (dict : Dict α) (hkeep : ¬keep key) :
    (dict.restrict keep).lookup key = none := by
  apply dlookup_eq_none.mpr
  intro hkey
  rcases exists_of_mem_keys hkey with ⟨value, hentry⟩
  exact hkeep (mem_filter.mp hentry).2

theorem forall_lookup {dict : Dict α} {p : α → Prop}
    (hall : ∀ entry ∈ dict.entries, p entry.2) (key : String) (value : α)
    (hvalue : dict.lookup key = some value) : p value :=
  hall ⟨key, value⟩ (AList.mem_lookup_iff.mp (Option.mem_def.mpr hvalue))

/-- Build a dictionary field by field, stopping at the first error. -/
def traverse (f : String → α → Except ε β) (dict : Dict α) :
    Except ε (Dict β) := do
  let entries ← dict.entries.mapM fun entry => do
    let value ← f entry.1 entry.2
    pure (⟨entry.1, value⟩ : Σ _ : String, β)
  pure entries.toAList

theorem mapM_entries_ok {f : String → α → Except ε β}
    {g : String → α → β} {entries : List (Σ _ : String, α)}
    (hf : ∀ entry ∈ entries, f entry.1 entry.2 = .ok (g entry.1 entry.2)) :
    (entries.mapM fun entry => do
      let value ← f entry.1 entry.2
      pure (⟨entry.1, value⟩ : Σ _ : String, β)) =
        .ok (entries.map fun entry => ⟨entry.1, g entry.1 entry.2⟩) := by
  induction entries with
  | nil => rfl
  | cons entry entries ih =>
    rw [mapM_cons, hf entry mem_cons_self,
      ih fun other hother => hf other (mem_cons_of_mem _ hother)]
    rfl

theorem toAList_entries {entries : List (Σ _ : String, α)}
    (hnodup : entries.NodupKeys) : entries.toAList.entries = entries := by
  rw [AList.entries_toAList]
  induction entries with
  | nil => rfl
  | cons entry entries ih =>
    obtain ⟨hfresh, hrest⟩ := nodupKeys_cons.mp hnodup
    rw [dedupKeys_cons, ih hrest, kinsert_def, kerase_of_notMem_keys hfresh]

theorem traverse_ok {f : String → α → Except ε β} {g : String → α → β}
    {dict : Dict α}
    (hf : ∀ key value, dict.lookup key = some value →
      f key value = .ok (g key value)) :
    traverse f dict = .ok (dict.map g) := by
  have hmem : ∀ entry ∈ dict.entries,
      f entry.1 entry.2 = .ok (g entry.1 entry.2) := by
    intro entry hentry
    exact hf entry.1 entry.2 (AList.mem_lookup_iff.mpr hentry)
  have hentries : (dict.map g).entries.toAList = dict.map g :=
    AList.ext (toAList_entries (dict.map g).nodupKeys)
  unfold traverse
  rw [mapM_entries_ok hmem, ← hentries]
  rfl

/-- Look a field up, raising if it is missing. -/
def fetch (dict : Dict α) (missing : String → ε)
    (key : String) : Except ε α :=
  match dict.lookup key with
  | some value => .ok value
  | none => .error (missing key)

@[simp] theorem fetch_eq_ok {dict : Dict α} :
    dict.fetch missing key = .ok value ↔ dict.lookup key = some value := by
  unfold fetch
  split <;> simp_all

theorem fetch_eq_error {dict : Dict α} :
    dict.fetch missing key = .error error ↔
      dict.lookup key = none ∧ missing key = error := by
  unfold fetch
  split <;> simp_all

end Dict

structure Tensor (α : Type) where
  shape : List ℕ
  entry : List ℕ → α

namespace Tensor

variable {α β : Type}

instance [Inhabited α] : Inhabited (Tensor α) := ⟨[], fun _ => default⟩

def rows (tensor : Tensor α) : ℕ := tensor.shape.headD 0

def steps (tensor : Tensor α) : ℕ := tensor.shape.getD 1 0

def row (tensor : Tensor α) (i : ℕ) : Tensor α where
  shape := tensor.shape.tail
  entry rest := tensor.entry (i :: rest)

def vector (n : ℕ) (f : ℕ → α) : Tensor α where
  shape := [n]
  entry index := f (index.getD 0 0)

def matrix (n m : ℕ) (f : ℕ → ℕ → α) : Tensor α where
  shape := [n, m]
  entry index := f (index.getD 0 0) (index.getD 1 0)

def cube (n m k : ℕ) (f : ℕ → ℕ → ℕ → α) : Tensor α where
  shape := [n, m, k]
  entry index := f (index.getD 0 0) (index.getD 1 0) (index.getD 2 0)

def map (f : α → β) (tensor : Tensor α) : Tensor β where
  shape := tensor.shape
  entry index := f (tensor.entry index)

def selectRows (tensor : Tensor α) (indices : List ℕ) : Tensor α where
  shape := indices.length :: tensor.shape.tail
  entry
    | i :: rest => tensor.entry (indices.getD i 0 :: rest)
    | [] => tensor.entry []

def cat (first second : Tensor α) : Tensor α where
  shape := (first.rows + second.rows) :: first.shape.tail
  entry
    | i :: rest =>
      if i < first.rows then first.entry (i :: rest)
      else second.entry ((i - first.rows) :: rest)
    | [] => first.entry []

def catRows [Inhabited α] : List (Tensor α) → Tensor α
  | [] => default
  | [tensor] => tensor
  | tensor :: tensors => tensor.cat (catRows tensors)

def zeroRowsFrom [Zero α] (start : ℕ) (tensor : Tensor α) : Tensor α where
  shape := tensor.shape
  entry
    | i :: rest => if start ≤ i then 0 else tensor.entry (i :: rest)
    | [] => tensor.entry []

/-- The multi-index of a position of the flattened tensor. -/
def unravel : List ℕ → ℕ → List ℕ
  | [], _ => []
  | _ :: shape, position =>
    position / shape.prod :: unravel shape (position % shape.prod)

def mergeLeading (tensor : Tensor α) : Tensor α where
  shape := (tensor.rows * tensor.steps) :: tensor.shape.drop 2
  entry
    | i :: rest =>
      tensor.entry (i / tensor.steps :: i % tensor.steps :: rest)
    | [] => tensor.entry []

def repeatInterleave (repeats : ℕ) (tensor : Tensor α) : Tensor α where
  shape := [tensor.shape.prod * repeats]
  entry
    | i :: rest => tensor.entry (unravel tensor.shape (i / repeats) ++ rest)
    | [] => tensor.entry []

def repeatRows (repeats : ℕ) (tensor : Tensor α) : Tensor α where
  shape := (tensor.rows * repeats) :: tensor.shape.tail
  entry
    | i :: rest => tensor.entry (i / repeats :: rest)
    | [] => tensor.entry []

def catSteps (first second : Tensor α) : Tensor α where
  shape := first.rows :: (first.steps + second.steps) :: first.shape.drop 2
  entry
    | i :: j :: rest =>
      if j < first.steps then first.entry (i :: j :: rest)
      else second.entry (i :: (j - first.steps) :: rest)
    | index => first.entry index

def repeatStep (repeats : ℕ) (tensor : Tensor α) : Tensor α where
  shape := tensor.rows :: repeats :: tensor.shape.tail
  entry
    | i :: _ :: rest => tensor.entry (i :: rest)
    | index => tensor.entry index

def dropStep (tensor : Tensor α) : Tensor α where
  shape := tensor.rows :: (tensor.steps - 1) :: tensor.shape.drop 2
  entry
    | i :: j :: rest => tensor.entry (i :: (j + 1) :: rest)
    | index => tensor.entry index

def lastStep (tensor : Tensor α) : Tensor α where
  shape := tensor.rows :: tensor.shape.drop 2
  entry
    | i :: rest => tensor.entry (i :: (tensor.steps - 1) :: rest)
    | [] => tensor.entry []

/-! ## The rows of the results -/

theorem row_cat_left {first second : Tensor α} (hi : i < first.rows) :
    (first.cat second).row i = first.row i := by
  simp [row, cat, hi]

theorem row_cat_right {first second : Tensor α}
    (hshape : first.shape.tail = second.shape.tail) (i : ℕ) :
    (first.cat second).row (first.rows + i) = second.row i := by
  have hright : ¬first.rows + i < first.rows := by omega
  simp [row, cat, hshape, hright]

theorem row_zeroRowsFrom_lt [Zero α] (tensor : Tensor α) (hi : i < start) :
    (tensor.zeroRowsFrom start).row i = tensor.row i := by
  simp [row, zeroRowsFrom, Nat.not_le.mpr hi]

theorem entry_zeroRowsFrom [Zero α] (tensor : Tensor α) (hi : start ≤ i)
    (rest : List ℕ) :
    (tensor.zeroRowsFrom start).entry (i :: rest) = 0 := by
  simp [zeroRowsFrom, hi]

theorem add_mul_div_mod {j n : ℕ} (hj : j < n) (i : ℕ) :
    (i * n + j) / n = i ∧ (i * n + j) % n = j := by
  have hpos : 0 < n := by omega
  constructor
  · rw [Nat.add_comm, Nat.add_mul_div_right _ _ hpos, Nat.div_eq_of_lt hj,
      Nat.zero_add]
  · rw [Nat.add_comm, Nat.add_mul_mod_self_right, Nat.mod_eq_of_lt hj]

theorem drop_two_shape (tensor : Tensor α) :
    tensor.shape.drop 2 = tensor.shape.tail.tail := by
  rw [← drop_one, ← drop_one, drop_drop]

theorem row_mergeLeading {tensor : Tensor α} (hj : j < tensor.steps) (i : ℕ) :
    tensor.mergeLeading.row (i * tensor.steps + j) = (tensor.row i).row j := by
  have hindex := add_mul_div_mod hj i
  simp [row, mergeLeading, hindex.1, hindex.2, drop_two_shape]

theorem row_repeatInterleave {tensor : Tensor α} {n repeats j : ℕ}
    (hshape : tensor.shape = [n]) (hj : j < repeats) (i : ℕ) :
    (tensor.repeatInterleave repeats).row (i * repeats + j) =
      tensor.row i := by
  have hindex := add_mul_div_mod hj i
  simp [row, repeatInterleave, hshape, unravel, hindex.1]

theorem row_repeatRows (tensor : Tensor α) (hj : j < repeats) (i : ℕ) :
    (tensor.repeatRows repeats).row (i * repeats + j) = tensor.row i := by
  have hindex := add_mul_div_mod hj i
  simp [row, repeatRows, hindex.1]

theorem step_catSteps_lt {first second : Tensor α} (hj : j < first.steps)
    (i : ℕ) :
    ((first.catSteps second).row i).row j = (first.row i).row j := by
  simp [row, catSteps, hj, drop_two_shape]

theorem step_catSteps_ge {first second : Tensor α} (hj : first.steps ≤ j)
    (hshape : first.shape.drop 2 = second.shape.drop 2) (i : ℕ) :
    ((first.catSteps second).row i).row j =
      (second.row i).row (j - first.steps) := by
  simp only [drop_two_shape] at hshape
  simp [row, catSteps, Nat.not_lt.mpr hj, drop_two_shape, hshape]

theorem step_repeatStep (repeats : ℕ) (tensor : Tensor α) (i j : ℕ) :
    ((tensor.repeatStep repeats).row i).row j = tensor.row i := rfl

theorem step_dropStep (tensor : Tensor α) (i j : ℕ) :
    (tensor.dropStep.row i).row j = (tensor.row i).row (j + 1) := by
  simp [row, dropStep, drop_two_shape]

/-! ## Stacking the same field of several batches -/

section Stack

variable [Inhabited α]

theorem catRows_cons (tensor : Tensor α) (hne : tensors ≠ []) :
    catRows (tensor :: tensors) = tensor.cat (catRows tensors) := by
  cases tensors with
  | nil => exact absurd rfl hne
  | cons next tensors => rfl

theorem shape_catRows {tensors : List (Tensor α)} (hne : tensors ≠ [])
    (hshape : ∀ tensor ∈ tensors, tensor.shape = tensor.rows :: tail) :
    (catRows tensors).shape = (tensors.map rows).sum :: tail := by
  induction tensors with
  | nil => exact absurd rfl hne
  | cons tensor tensors ih =>
    have hfirst := hshape tensor mem_cons_self
    cases tensors with
    | nil => simpa [catRows] using hfirst
    | cons next tensors =>
      have hrest := ih (cons_ne_nil next tensors) fun other hother =>
        hshape other (mem_cons_of_mem tensor hother)
      have hrows : (catRows (next :: tensors)).rows =
          ((next :: tensors).map rows).sum := by
        rw [rows, hrest, headD_cons]
      rw [catRows_cons tensor (cons_ne_nil next tensors),
        map_cons, sum_cons, ← hrows]
      have htail : tensor.shape.tail = tail := by
        rw [hfirst, tail_cons]
      rw [← htail]
      rfl

theorem row_catRows {before after : List (Tensor α)} {tensor : Tensor α}
    (hshape : ∀ other ∈ before ++ tensor :: after,
      other.shape = other.rows :: tail) (hi : i < tensor.rows) :
    (catRows (before ++ tensor :: after)).row
      ((before.map rows).sum + i) = tensor.row i := by
  induction before with
  | nil =>
    rw [map_nil, sum_nil, Nat.zero_add, nil_append]
    cases after with
    | nil => rfl
    | cons next after =>
      rw [catRows_cons tensor (cons_ne_nil next after)]
      exact row_cat_left hi
  | cons first before ih =>
    have hne : before ++ tensor :: after ≠ [] := by simp
    have hrest : ∀ other ∈ before ++ tensor :: after,
        other.shape = other.rows :: tail := fun other hother =>
      hshape other (mem_cons_of_mem first hother)
    have htail : first.shape.tail =
        (catRows (before ++ tensor :: after)).shape.tail := by
      rw [hshape first mem_cons_self, shape_catRows hne hrest]
      rfl
    rw [cons_append, catRows_cons first hne, map_cons,
      sum_cons, Nat.add_assoc, row_cat_right htail]
    exact ih hrest

theorem mapM_eq_some_map {σ : Type} {f : σ → Option β} {g : σ → β}
    {items : List σ} (hf : ∀ item ∈ items, f item = some (g item)) :
    items.mapM f = some (items.map g) := by
  induction items with
  | nil => rfl
  | cons item items ih =>
    rw [mapM_cons, hf item mem_cons_self,
      ih fun other hother => hf other (mem_cons_of_mem item hother)]
    rfl

end Stack

end Tensor
end VerlVla
