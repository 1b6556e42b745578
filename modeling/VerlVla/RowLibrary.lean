import VerlVla.RolloutBatch

/-!
# An executable training library

Batches are selected and stacked row by row.  The advantage of a trajectory is
its outcome centred and scaled within its group, as the estimator documents;
square roots are taken of rational squares only.
-/

namespace VerlVla
namespace RowLibrary

variable {ω : Type}

def sqrtNat (n : ℕ) : ℕ :=
  ((List.range (n + 1)).find? fun root => root * root = n).getD 0

/-- The root of a rational square. -/
def sqrt (value : ℚ) : ℚ := sqrtNat value.num.natAbs / sqrtNat value.den

def average (values : List ℚ) : ℚ := values.sum / values.length

/-- The unbiased standard deviation. -/
def std (values : List ℚ) : ℚ :=
  sqrt ((values.map fun value => (value - average values) ^ 2).sum /
    (values.length - 1))

def uniformRows (data : DataProto ω) : Bool :=
  data.batch.entries.all (fun entry =>
      entry.2.shape.head? = some data.length) ∧
    data.nonTensorBatch.entries.all (fun entry =>
      entry.2.shape.head? = some data.length)

def fromDict (batch : Dict (Tensor ℚ)) (nonTensorBatch : Dict (Tensor ω))
    (metaInfo : Dict MetaValue) :
    Except (TrainingError ω) (DataProto ω) :=
  if uniformRows (DataProto.mk batch nonTensorBatch metaInfo) then
    .ok ⟨batch, nonTensorBatch, metaInfo⟩
  else .error (.library "batch sizes differ")

def selectIdxs (data : DataProto ω) (indices : List ℕ) : DataProto ω where
  batch := data.batch.map fun _ tensor => tensor.selectRows indices
  nonTensorBatch :=
    data.nonTensorBatch.map fun _ array => array.selectRows indices
  metaInfo := data.metaInfo

def concat [Inhabited ω] : List (DataProto ω) →
    Except (TrainingError ω) (DataProto ω)
  | [] => .error (.library "nothing to concatenate")
  | first :: rest => .ok
      { batch := first.batch.map fun key tensor =>
          Tensor.catRows (tensor ::
            rest.filterMap fun data => data.batch.lookup key)
        nonTensorBatch := first.nonTensorBatch.map fun key array =>
          Tensor.catRows (array ::
            rest.filterMap fun data => data.nonTensorBatch.lookup key)
        metaInfo := first.metaInfo }

/-- Outcomes centred and scaled within the group of the same index. -/
def computeGrpoOutcomeAdvantage [DecidableEq ω]
    (rewards mask : Tensor ℚ) (index : List ω) : Tensor ℚ :=
  let score := fun i => (List.range rewards.steps).map
    (fun token => rewards.entry [i, token]) |>.sum
  let members := fun i => (List.range rewards.rows).filter fun j =>
    index[j]? = index[i]?
  let centre := fun i =>
    if (members i).length = 1 then 0 else average ((members i).map score)
  let spread := fun i =>
    if (members i).length = 1 then 1 else std ((members i).map score)
  .matrix rewards.rows rewards.steps fun i token =>
    (score i - centre i) / (spread i + 1 / 1000000) * mask.entry [i, token]

end RowLibrary

open RowLibrary in
def rowLibrary (ω : Type) [Inhabited ω] [DecidableEq ω] :
    TrainingLibrary ω where
  fromDict := fromDict
  selectIdxs := selectIdxs
  concat := concat
  computeGrpoOutcomeAdvantage := computeGrpoOutcomeAdvantage
  std := std

namespace RowLibrary

variable {ω : Type} [Inhabited ω] [DecidableEq ω]

theorem stacked_lookup {α σ : Type} [Inhabited α]
    (field : σ → Option (Tensor α)) (first : σ) (rest : List σ)
    (hsame : ∀ item ∈ rest, (field item).isSome = (field first).isSome) :
    (field first).map (fun tensor =>
        Tensor.catRows (tensor :: rest.filterMap field)) =
      ((first :: rest).mapM field).map Tensor.catRows := by
  cases hfirst : field first with
  | none =>
    rw [List.mapM_cons, hfirst]
    rfl
  | some tensor =>
    let found : σ → Tensor α := fun item => (field item).getD default
    have hfound : ∀ item ∈ rest, field item = some (found item) := by
      intro item hitem
      have hsome := hsame item hitem
      rw [hfirst, Option.isSome_some] at hsome
      obtain ⟨value, hvalue⟩ := Option.isSome_iff_exists.mp hsome
      simp [found, hvalue]
    have hfilter : rest.filterMap field = rest.map found := by
      rw [← List.filterMap_eq_map]
      exact List.filterMap_congr hfound
    rw [List.mapM_cons, hfirst, Tensor.mapM_eq_some_map hfound, hfilter]
    rfl

omit [DecidableEq ω] in
theorem uniformRows_of_hasRows {data : DataProto ω} {n : ℕ}
    (hrows : data.HasRows n) : uniformRows data = true := by
  have htensors : ∀ entry ∈ data.batch.entries,
      entry.2.shape.head? = some n := fun entry hentry =>
    hrows.tensors entry.1 entry.2 (AList.mem_lookup_iff.mpr hentry)
  have harrays : ∀ entry ∈ data.nonTensorBatch.entries,
      entry.2.shape.head? = some n := fun entry hentry =>
    hrows.arrays entry.1 entry.2 (AList.mem_lookup_iff.mpr hentry)
  have hlength : (∃ entry, entry ∈ data.batch.entries) ∨
      (∃ entry, entry ∈ data.nonTensorBatch.entries) → data.length = n := by
    unfold DataProto.length
    cases hbatch : data.batch.entries with
    | nil =>
      cases hother : data.nonTensorBatch.entries with
      | nil => simp
      | cons entry entries =>
        intro _
        apply DataProto.rows_of_head
        apply harrays
        rw [hother]
        exact List.mem_cons_self
    | cons entry entries =>
      intro _
      apply DataProto.rows_of_head
      apply htensors
      rw [hbatch]
      exact List.mem_cons_self
  simp only [uniformRows, List.all_eq_true, decide_eq_true_eq]
  constructor
  · intro entry hentry
    rw [htensors entry hentry, hlength (.inl ⟨entry, hentry⟩)]
  · intro entry hentry
    rw [harrays entry hentry, hlength (.inr ⟨entry, hentry⟩)]

theorem rowLibrary_documented : (rowLibrary ω).Documented where
  fromDict_ok data n hrows := if_pos (uniformRows_of_hasRows hrows)
  selectIdxs_batch data indices key := Dict.lookup_map _ _ key
  selectIdxs_nonTensorBatch data indices key := Dict.lookup_map _ _ key
  selectIdxs_metaInfo data indices := rfl
  concat_ok := by
    intro protos hne _ hsame
    obtain ⟨first, rest, rfl⟩ := List.exists_cons_of_ne_nil hne
    have hfirst : first ∈ first :: rest := List.mem_cons_self
    refine ⟨_, rfl, ?_, ?_, ?_⟩
    · intro key
      rw [Dict.lookup_map]
      apply stacked_lookup
      intro data hdata
      have h := (hsame data (List.mem_cons_of_mem _ hdata) first
        hfirst).tensors key
      simpa using congrArg Option.isSome h
    · intro key
      rw [Dict.lookup_map]
      apply stacked_lookup
      intro data hdata
      have h := (hsame data (List.mem_cons_of_mem _ hdata) first
        hfirst).arrays key
      simpa using congrArg Option.isSome h
    · intro data hdata
      exact (hsame first hfirst data hdata).metaInfo

end RowLibrary
end VerlVla
