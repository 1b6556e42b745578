import VerlVla.FpoActorInput
import VerlVla.NativeEval

/-!
# Collated rollouts

Every policy call of a collected group leaves a slot: the observations, the
actions and the feedback of all lanes.  The slots of a group are stacked along
a second axis.  A field that only some slots have is zero in the others.
-/

namespace VerlVla
namespace Collation

open BaseEnv NativeEval

/-! ## Stacking -/

inductive CollateError
  | noSlots
  | stackShape (key : String)
  deriving DecidableEq

section Stack

variable {α : Type}

def stackSteps (template : Tensor α) (tensors : List (Tensor α)) :
    Tensor α where
  shape := template.rows :: tensors.length :: template.shape.tail
  entry
    | i :: j :: rest => (tensors.getD j template).entry (i :: rest)
    | index => template.entry index

def zerosLike (zero : α) (template : Tensor α) : Tensor α where
  shape := template.shape
  entry _ := zero

/-- The first value of the key among the slots. -/
def stackTemplate (zero : α) (dicts : List (Dict (Tensor α)))
    (key : String) : Tensor α :=
  (dicts.findSome? fun dict => dict.lookup key).getD ⟨[], fun _ => zero⟩

def perStepValues (zero : α) (dicts : List (Dict (Tensor α)))
    (key : String) : List (Tensor α) :=
  dicts.map fun dict =>
    (dict.lookup key).getD (zerosLike zero (stackTemplate zero dicts key))

def stackedField (zero : α) (dicts : List (Dict (Tensor α)))
    (key : String) : Tensor α :=
  stackSteps (stackTemplate zero dicts key) (perStepValues zero dicts key)

def labelled (label key : String) : String := label ++ "." ++ key

def stackKeys (dicts : List (Dict (Tensor α))) : List String :=
  ((dicts.flatMap AList.keys).dedup).mergeSort

def stackField (zero : α) (dicts : List (Dict (Tensor α)))
    (label : String) (merged : Dict (Tensor α)) (key : String) :
    Except CollateError (Dict (Tensor α)) := do
  let template := stackTemplate zero dicts key
  require (∀ value ∈ perStepValues zero dicts key,
    value.shape = template.shape) (.stackShape key)
  pure (merged.insert (labelled label key) (stackedField zero dicts key))

def stackFields (zero : α) (dicts : List (Dict (Tensor α)))
    (label : String) : Except CollateError (Dict (Tensor α)) :=
  (stackKeys dicts).foldlM (stackField zero dicts label) ∅

theorem labelled_inj :
    labelled label first = labelled label second ↔ first = second := by
  constructor
  · intro hsame
    have hlists := congrArg String.toList hsame
    simp only [labelled, String.toList_append] at hlists
    exact String.ext (List.append_cancel_left hlists)
  · intro hsame
    rw [hsame]

theorem lookup_foldlM_stackField {keys : List String}
    {start merged : Dict (Tensor α)}
    (hfold : keys.foldlM (stackField zero dicts label) start = .ok merged)
    (key : String) :
    merged.lookup (labelled label key) =
      if key ∈ keys then some (stackedField zero dicts key)
      else start.lookup (labelled label key) := by
  induction keys generalizing start with
  | nil =>
    cases hfold
    simp
  | cons first keys ih =>
    rw [List.foldlM_cons] at hfold
    obtain ⟨next, hnext, hrest⟩ := bind_eq_ok.mp hfold
    unfold stackField at hnext
    dsimp only at hnext
    obtain ⟨_, _, hpure⟩ := bind_eq_ok.mp hnext
    cases hpure
    rw [ih hrest]
    by_cases hlater : key ∈ keys
    · rw [if_pos hlater, if_pos (List.mem_cons_of_mem _ hlater)]
    · rw [if_neg hlater]
      by_cases hsame : key = first
      · rw [hsame, AList.lookup_insert, if_pos List.mem_cons_self]
      · have hother : labelled label key ≠ labelled label first :=
          fun hlabels => hsame (labelled_inj.mp hlabels)
        have hmem : key ∉ first :: keys := by
          simp [hsame, hlater]
        rw [AList.lookup_insert_ne hother, if_neg hmem]

theorem mem_stackKeys : key ∈ stackKeys dicts ↔
      ∃ dict ∈ dicts, (dict.lookup key).isSome = true := by
  unfold stackKeys
  rw [List.mem_mergeSort, List.mem_dedup, List.mem_flatMap]
  simp only [AList.lookup_isSome, AList.mem_keys]

theorem lookup_stackFields {merged : Dict (Tensor α)}
    (hstack : stackFields zero dicts label = .ok merged) (key : String) :
    merged.lookup (labelled label key) =
      if key ∈ stackKeys dicts then some (stackedField zero dicts key)
      else none := by
  rw [lookup_foldlM_stackField hstack key]
  rfl

theorem stackFields_of_shapes (zero : α) (label : String)
    (hshapes : ∀ key, ∀ dict ∈ dicts, ∀ value,
      dict.lookup key = some value → value.shape = shape) :
    ∃ merged, stackFields zero dicts label = .ok merged := by
  have hcheck : ∀ key ∈ stackKeys dicts,
      ∀ value ∈ perStepValues zero dicts key,
        value.shape = (stackTemplate zero dicts key).shape := by
    intro key hkey value hvalue
    obtain ⟨dict, hdict, hfound⟩ := mem_stackKeys.mp hkey
    have htemplate : (stackTemplate zero dicts key).shape = shape := by
      unfold stackTemplate
      cases hfirst : dicts.findSome? fun dict => dict.lookup key with
      | none =>
        have hnone := List.findSome?_eq_none_iff.mp hfirst dict hdict
        simp [hnone] at hfound
      | some template =>
        obtain ⟨other, hother, hlookup⟩ :=
          List.exists_of_findSome?_eq_some hfirst
        exact hshapes key other hother template hlookup
    obtain ⟨other, hother, rfl⟩ := List.mem_map.mp hvalue
    cases hlookup : other.lookup key with
    | none => rfl
    | some found =>
      rw [htemplate]
      exact hshapes key other hother found hlookup
  have hfold : ∀ (keys : List String) (start : Dict (Tensor α)),
      (∀ key ∈ keys, key ∈ stackKeys dicts) →
        ∃ merged, keys.foldlM (stackField zero dicts label) start =
          .ok merged := by
    intro keys
    induction keys with
    | nil => exact fun start _ => ⟨start, rfl⟩
    | cons key keys ih =>
      intro start hkeys
      obtain ⟨merged, hmerged⟩ := ih
        (start.insert (labelled label key) (stackedField zero dicts key))
        fun other hother => hkeys other (List.mem_cons_of_mem _ hother)
      refine ⟨merged, ?_⟩
      rw [List.foldlM_cons]
      apply bind_eq_ok.mpr
      refine ⟨_, ?_, hmerged⟩
      unfold stackField
      dsimp only
      rw [require_of (hcheck key (hkeys key List.mem_cons_self))]
      rfl
  exact hfold _ _ fun _ hkey => hkey

end Stack

/-! ## Slots -/

/-- What a policy call leaves. -/
structure Slot (ω : Type) where
  observation : DataProto ω
  action : DataProto ω
  feedback : DataProto ω

section Feedback

variable {n : ℕ}

/-- One value of every lane and low-level step of a call. -/
def feedbackField (value : StepFeedback n → Fin n → ℚ)
    (steps : List (StepFeedback n)) : Tensor ℚ :=
  Tensor.matrix n steps.length fun e j =>
    if h : e < n then (steps[j]?.map fun step => value step ⟨e, h⟩).getD 0
    else 0

/-- The feedback of a call; scores are there only if the simulator has them. -/
def feedbackBatch (steps : List (StepFeedback n)) : Dict (Tensor ℚ) :=
  let fields := AList.insert "reward"
      (feedbackField (fun step e => step.reward e) steps)
    (AList.insert "terminated"
      (feedbackField (fun step e => float (step.terminated e)) steps)
    (AList.insert "truncated"
      (feedbackField (fun step e => float (step.truncated e)) steps)
    (AList.insert "success"
      (feedbackField (fun step e => float (step.success e)) steps) ∅)))
  if hasScores steps then
    AList.insert "score"
      (feedbackField (fun step e => (step.score e).getD 0) steps) fields
  else fields

theorem feedbackBatch_flag (steps : List (StepFeedback n)) :
    (feedbackBatch steps).lookup "terminated" =
        some (feedbackField (fun step e => float (step.terminated e)) steps) ∧
      (feedbackBatch steps).lookup "truncated" =
        some (feedbackField (fun step e => float (step.truncated e)) steps) ∧
      (feedbackBatch steps).lookup "success" =
        some (feedbackField (fun step e => float (step.success e)) steps) := by
  unfold feedbackBatch
  by_cases hscores : hasScores steps = true
  · simp [hscores, AList.singleton, AList.lookup]
  · simp [hscores, AList.singleton, AList.lookup]

theorem feedbackBatch_score (hscores : hasScores steps = true) :
    (feedbackBatch steps).lookup "score" =
      some (feedbackField (fun step e => (step.score e).getD 0) steps) := by
  unfold feedbackBatch
  simp [hscores]

theorem feedbackBatch_field {steps : List (StepFeedback n)} {key : String}
    {value : Tensor ℚ} (hvalue : (feedbackBatch steps).lookup key =
      some value) : ∃ field, value = feedbackField field steps := by
  have hinsert : ∀ (name : String) (field : StepFeedback n → Fin n → ℚ)
      (fields : Dict (Tensor ℚ)),
      (AList.insert name (feedbackField field steps) fields).lookup key =
        some value →
      (∃ field, value = feedbackField field steps) ∨
        fields.lookup key = some value := by
    intro name field fields hlookup
    by_cases hname : key = name
    · rw [hname, AList.lookup_insert] at hlookup
      cases hlookup
      exact .inl ⟨field, rfl⟩
    · rw [AList.lookup_insert_ne hname] at hlookup
      exact .inr hlookup
  have hbase : ∀ fields : Dict (Tensor ℚ), fields = AList.insert "reward"
      (feedbackField (fun step e => step.reward e) steps)
      (AList.insert "terminated"
        (feedbackField (fun step e => float (step.terminated e)) steps)
      (AList.insert "truncated"
        (feedbackField (fun step e => float (step.truncated e)) steps)
      (AList.insert "success"
        (feedbackField (fun step e => float (step.success e)) steps) ∅))) →
      fields.lookup key = some value →
        ∃ field, value = feedbackField field steps := by
    intro fields hfields hlookup
    rw [hfields] at hlookup
    cases hinsert _ _ _ hlookup with
    | inl hfound => exact hfound
    | inr hlookup =>
      cases hinsert _ _ _ hlookup with
      | inl hfound => exact hfound
      | inr hlookup =>
        cases hinsert _ _ _ hlookup with
        | inl hfound => exact hfound
        | inr hlookup =>
          cases hinsert _ _ _ hlookup with
          | inl hfound => exact hfound
          | inr hlookup => cases hlookup
  unfold feedbackBatch at hvalue
  dsimp only at hvalue
  split_ifs at hvalue
  · cases hinsert _ _ _ hvalue with
    | inl hfound => exact hfound
    | inr hlookup => exact hbase _ rfl hlookup
  · exact hbase _ rfl hvalue

end Feedback

def stackSlots {ω : Type} (blank : ω) (protos : List (DataProto ω))
    (label : String) :
    Except CollateError (Dict (Tensor ℚ) × Dict (Tensor ω)) := do
  let tensors ← stackFields 0 (protos.map DataProto.batch) label
  let arrays ← stackFields blank (protos.map DataProto.nonTensorBatch) label
  pure (tensors, arrays)

/-- The slots of all policy calls, stacked field by field.  `blank` is the
zero of the arrays. -/
def collateCandidateTrajectory {ω : Type} (blank : ω)
    (slots : List (Slot ω)) (finalObs : DataProto ω) :
    Except CollateError (DataProto ω × DataProto ω) := do
  require (slots ≠ []) .noSlots
  let obs ← stackSlots blank (slots.map Slot.observation) "obs"
  let action ← stackSlots blank (slots.map Slot.action) "action"
  let next ← stackSlots blank (slots.map Slot.feedback) "next"
  pure (⟨next.1 ∪ (action.1 ∪ obs.1), next.2 ∪ (action.2 ∪ obs.2), ∅⟩,
    finalObs)

theorem lookup_next_of_collate {ω : Type} {blank : ω}
    {slots : List (Slot ω)} {finalObs rollout endObs : DataProto ω}
    (hcollate : collateCandidateTrajectory blank slots finalObs =
      .ok (rollout, endObs)) {key : String}
    (hkey : ∃ slot ∈ slots, (slot.feedback.batch.lookup key).isSome) :
    rollout.batch.lookup (labelled "next" key) =
      some (stackedField 0 (slots.map fun slot => slot.feedback.batch)
        key) := by
  unfold collateCandidateTrajectory at hcollate
  rw [require_bind_eq_ok] at hcollate
  obtain ⟨_, hrest⟩ := hcollate
  obtain ⟨obs, _, hrest⟩ := bind_eq_ok.mp hrest
  obtain ⟨action, _, hrest⟩ := bind_eq_ok.mp hrest
  obtain ⟨next, hnext, hpure⟩ := bind_eq_ok.mp hrest
  cases hpure
  obtain ⟨tensors, htensors, harrays⟩ := bind_eq_ok.mp hnext
  obtain ⟨arrays, _, hpair⟩ := bind_eq_ok.mp harrays
  cases hpair
  rw [List.map_map] at htensors
  have hlookup := lookup_stackFields htensors key
  rw [if_pos] at hlookup
  · have hmem : labelled "next" key ∈ tensors := by
      rw [← AList.lookup_isSome, hlookup]
      rfl
    rw [AList.lookup_union_left hmem]
    exact hlookup
  · rw [mem_stackKeys]
    obtain ⟨slot, hslot, hvalue⟩ := hkey
    exact ⟨slot.feedback.batch, List.mem_map.mpr ⟨slot, hslot, rfl⟩, hvalue⟩

end Collation
end VerlVla
