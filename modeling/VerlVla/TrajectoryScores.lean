import Mathlib.Data.List.GetD
import VerlVla.BlockPartition
import VerlVla.CollatedRollout
import VerlVla.ExecutedTicks
import VerlVla.PaddingInvariance
import VerlVla.TeleopActions
import VerlVla.VectorOutcomes

/-!
# Scores of a trajectory

The evaluator keeps a running score and a running success of every lane, call
by call.  The trainer reads both off the collated rollout of the same calls: the
score of the first done step, or of the last step without one.
-/

namespace VerlVla

open List hiding cons count length nil
namespace Collation

open BaseEnv NativeEval

/-! ## The two ways to reduce a trajectory -/

section Rows

variable {n : ℕ} {e : Fin n}

theorem terminalOrLatestScore_append_done
    (hlength : scores.length = dones.length) (hdone : true ∈ dones) :
    terminalOrLatestScore (scores ++ later) (dones ++ laterDones) =
      terminalOrLatestScore scores dones := by
  unfold terminalOrLatestScore
  rw [findIdx?_append]
  cases hfirst : dones.findIdx? id with
  | none =>
    rw [findIdx?_eq_none_iff] at hfirst
    have hnot := hfirst true hdone
    cases hnot
  | some position =>
    have hrange := (findIdx?_eq_some_iff_getElem.mp hfirst).1
    rw [Option.some_or]
    dsimp only
    rw [getD_eq_getElem?_getD, getD_eq_getElem?_getD,
      getElem?_append_left (by omega)]

theorem terminalOrLatestScore_append_live
    (hlength : scores.length = dones.length) (hne : later ≠ [])
    (hlive : true ∉ dones) :
    terminalOrLatestScore (scores ++ later) (dones ++ laterDones) =
      terminalOrLatestScore later laterDones := by
  have hnone : dones.findIdx? id = none := by
    rw [findIdx?_eq_none_iff]
    intro done hdone
    cases done with
    | true => exact absurd hdone hlive
    | false => rfl
  unfold terminalOrLatestScore
  rw [findIdx?_append, hnone, Option.none_or]
  cases hfirst : laterDones.findIdx? id with
  | none =>
    rw [Option.map_none]
    dsimp only
    rw [getLastD_eq_getLast?, getLastD_eq_getLast?,
      getLast?_append_of_ne_nil _ hne]
  | some position =>
    rw [Option.map_some]
    dsimp only
    rw [getD_eq_getElem?_getD, getD_eq_getElem?_getD,
      getElem?_append_right (by omega)]
    congr 2
    omega

theorem mem_doneRow :
    true ∈ doneRow steps e ↔ (steps.any fun step => step.flagged e) = true := by
  unfold doneRow StepFeedback.flagged
  rw [mem_map, any_eq_true]

theorem doneRow_append (first second : List (StepFeedback n)) :
    doneRow (first ++ second) e = doneRow first e ++ doneRow second e :=
  map_append

theorem scoreRow_append (first second : List (StepFeedback n)) :
    scoreRow (first ++ second) e = scoreRow first e ++ scoreRow second e :=
  map_append

def trajectoryScore (steps : List (StepFeedback n)) (e : Fin n) : ℚ :=
  if steps = [] then 0
  else terminalOrLatestScore (scoreRow steps e) (doneRow steps e)

theorem trajectoryScore_append {seen steps : List (StepFeedback n)}
    (hsteps : steps ≠ []) :
    trajectoryScore (seen ++ steps) e =
      if seen.any fun step => step.flagged e then trajectoryScore seen e
      else terminalOrLatestScore (scoreRow steps e) (doneRow steps e) := by
  have hlengths : ∀ steps : List (StepFeedback n),
      (scoreRow steps e).length = (doneRow steps e).length := by
    intro steps
    simp [scoreRow, doneRow]
  have hne : seen ++ steps ≠ [] := append_ne_nil_of_right_ne_nil _ hsteps
  unfold trajectoryScore
  rw [if_neg hne, scoreRow_append, doneRow_append]
  by_cases hdone : (seen.any fun step => step.flagged e) = true
  · have hseen : seen ≠ [] := by
      intro hnil
      simp [hnil] at hdone
    rw [if_pos hdone, if_neg hseen]
    exact terminalOrLatestScore_append_done (hlengths seen)
      (mem_doneRow.mpr hdone)
  · rw [if_neg hdone]
    apply terminalOrLatestScore_append_live (hlengths seen)
    · simpa [scoreRow] using hsteps
    · intro hmem
      exact hdone (mem_doneRow.mp hmem)

theorem any_or_any {α : Type} (items : List α) (p q : α → Bool) :
    (items.any fun item => p item || q item) =
      (items.any p || items.any q) := by
  induction items with
  | nil => rfl
  | cons item items ih =>
    rw [any_cons, any_cons, any_cons, ih, Bool.or_assoc,
      Bool.or_assoc, Bool.or_left_comm (q item)]

/-! ## The loop of the evaluator -/

def observeCall (reduction : ScoreReduction) (loop : EvalLoop n)
    (steps : List (StepFeedback n)) : EvalLoop n :=
  loop.countCalls.observeSteps reduction steps

/-- What the arrays of the evaluator hold after some low-level steps. -/
structure Running (loop : EvalLoop n) (seen : List (StepFeedback n)) :
    Prop where
  done : ∀ e, loop.done e = seen.any fun step => step.flagged e
  success : ∀ e, loop.success e = seen.any fun step => step.success e
  score : ∀ e, loop.score e = trajectoryScore seen e

theorem Running.start : Running (EvalLoop.start : EvalLoop n) [] :=
  ⟨fun _ => rfl, fun _ => rfl, fun _ => rfl⟩

theorem Running.observe (hloop : Running loop seen)
    (hscores : hasScores steps = true) :
    Running (observeCall .terminal loop steps) (seen ++ steps) := by
  have hsteps : steps ≠ [] := by
    intro hnil
    rw [hnil] at hscores
    cases hscores
  constructor
  · intro e
    have hflags : (steps.any fun step => step.flagged e) =
        ((steps.any fun step => step.terminated e) ||
          steps.any fun step => step.truncated e) := by
      unfold StepFeedback.flagged
      exact any_or_any steps _ _
    rw [any_append, hflags, ← hloop.done e, ← Bool.or_assoc]
    rfl
  · intro e
    rw [any_append, ← hloop.success e]
    rfl
  · intro e
    rw [trajectoryScore_append hsteps, ← hloop.done e, ← hloop.score e]
    unfold observeCall EvalLoop.observeSteps
    dsimp only
    rw [if_pos hscores]
    have hdone : loop.countCalls.done e = loop.done e := rfl
    have hscore : loop.countCalls.score e = loop.score e := rfl
    rw [hdone, hscore]
    unfold terminalOrLatestScores
    rw [hdone]
    split_ifs with hended
    · rfl
    · rfl

theorem Running.calls {calls : List (List (StepFeedback n))}
    (hscores : ∀ steps ∈ calls, hasScores steps = true) :
    Running (calls.foldl (observeCall .terminal) EvalLoop.start)
      calls.flatten := by
  induction calls using reverseRecOn with
  | nil => exact Running.start
  | append_singleton calls steps ih =>
    rw [foldl_append, flatten_append, flatten_singleton]
    have hearlier := ih fun other hother =>
      hscores other (mem_append_left _ hother)
    exact hearlier.observe (hscores steps (by simp))

end Rows

/-! ## The collated rollout -/

def Collates {n : ℕ} {ω : Type} (blank : ω)
    (calls : List (List (StepFeedback n))) (rollout : DataProto ω) : Prop :=
  ∃ slots finalObs endObs,
    (slots.map fun slot : Slot ω => slot.feedback.batch) =
      calls.map feedbackBatch ∧
    collateCandidateTrajectory blank slots finalObs = .ok (rollout, endObs)

structure Uniform {n : ℕ} (substeps : ℕ)
    (calls : List (List (StepFeedback n))) : Prop where
  length : ∀ steps ∈ calls, steps.length = substeps
  scored : ∀ steps ∈ calls, hasScores steps = true

section Collated

variable {n substeps : ℕ} {ω : Type} {blank : ω}
  {calls : List (List (StepFeedback n))} {rollout : DataProto ω}

theorem stackedField_feedback
    (hkey : ∀ steps ∈ calls, (feedbackBatch steps).lookup key =
      some (feedbackField value steps)) (hne : calls ≠ []) :
    stackedField 0 (calls.map feedbackBatch) key =
      stackSteps (feedbackField value (calls.headD []))
        (calls.map (feedbackField value)) := by
  have htemplate : stackTemplate 0 (calls.map feedbackBatch) key =
      feedbackField value (calls.headD []) := by
    cases calls with
    | nil => exact absurd rfl hne
    | cons steps calls =>
      unfold stackTemplate
      rw [map_cons, findSome?_cons, hkey steps mem_cons_self]
      rfl
  unfold stackedField perStepValues
  rw [htemplate, map_map]
  congr 1
  apply map_congr_left
  intro steps hsteps
  rw [Function.comp_apply, hkey steps hsteps]
  rfl

theorem flattenTail_stacked (value : StepFeedback n → Fin n → ℚ)
    (huniform : Uniform substeps calls) (hne : calls ≠ []) :
    let stacked := stackSteps (feedbackField value (calls.headD []))
      (calls.map (feedbackField value))
    (flattenTail stacked).shape = [n, calls.length * substeps] ∧
      ∀ (e : Fin n) (position : ℕ), position < calls.length * substeps →
        (flattenTail stacked).entry [e.val, position] =
          (calls.flatten[position]?.map fun step => value step e).getD 0 := by
  intro stacked
  have hhead : (calls.headD []).length = substeps := by
    cases calls with
    | nil => exact absurd rfl hne
    | cons steps calls => exact huniform.length steps mem_cons_self
  have hshape : stacked.shape = [n, calls.length, substeps] := by
    show [n, (calls.map (feedbackField value)).length,
      (calls.headD []).length] = _
    rw [length_map, hhead]
  constructor
  · unfold flattenTail Tensor.rows
    rw [hshape]
    simp
  · intro e position hposition
    have hwidth : 0 < substeps := by
      by_contra hzero
      have hnone : substeps = 0 := by omega
      rw [hnone, Nat.mul_zero] at hposition
      omega
    have hcall : position / substeps < calls.length :=
      Nat.div_lt_of_lt_mul (by rw [Nat.mul_comm]; exact hposition)
    have hstep : position % substeps < substeps := Nat.mod_lt _ hwidth
    rw [getElem?_flatten_of_length hwidth huniform.length,
      getElem?_eq_getElem hcall]
    unfold flattenTail
    rw [hshape]
    simp only [tail_cons, Tensor.unravel, prod_cons,
      prod_nil, Nat.mul_one, Nat.div_one]
    show ((calls.map (feedbackField value)).getD (position / substeps)
      _).entry [e.val, position % substeps] = _
    rw [getD_eq_getElem _ _ (by simpa using hcall), getElem_map]
    simp [feedbackField, Tensor.matrix]

theorem terminalOrLatestScore_eq (hlength : scores.length = dones.length)
    (hflags : ∀ position < dones.length,
      flags position = dones.getD position false) :
    terminalOrLatestScore scores dones =
      scores.getD (terminalIndex flags dones.length) 0 := by
  unfold terminalOrLatestScore terminalIndex
  cases hfirst : dones.findIdx? id with
  | some position =>
    obtain ⟨hrange, hdone, hbefore⟩ := findIdx?_eq_some_iff_getElem.mp hfirst
    have hfind : (range dones.length).find? flags = some position := by
      rw [find?_range_eq_some]
      refine ⟨?_, mem_range.mpr hrange, ?_⟩
      · rw [hflags position hrange, getD_eq_getElem _ _ hrange]
        exact hdone
      · intro earlier hearlier
        have hlt : earlier < dones.length := by omega
        rw [hflags earlier hlt, getD_eq_getElem _ _ hlt]
        simpa using hbefore earlier hearlier
    rw [hfind]
    rfl
  | none =>
    have hfind : (range dones.length).find? flags = none := by
      rw [find?_eq_none]
      intro position hposition
      have hrange := mem_range.mp hposition
      rw [hflags position hrange, getD_eq_getElem _ _ hrange]
      have hnone := findIdx?_eq_none_iff.mp hfirst _ (getElem_mem hrange)
      simpa using hnone
    rw [hfind]
    dsimp only
    rw [Option.getD_none, getLastD_eq_getLast?,
      getLast?_eq_getElem?, hlength, getD_eq_getElem?_getD]

theorem float_ne_zero (flag : Bool) : float flag ≠ 0 ↔ flag = true := by
  cases flag with
  | true | false => simp [float]

structure ReadOff (rollout : DataProto ω)
    (steps : List (StepFeedback n)) : Prop where
  scores : ∃ scores, (terminalTrajectoryScores rollout.batch :
      Except (TrainingError ω) (ℕ → ℚ)) = .ok scores ∧
    ∀ e : Fin n, scores e = trajectoryScore steps e
  success : ∃ success, rollout.batch.lookup "next.success" = some success ∧
    ∀ e : Fin n, anyOf success e = steps.any fun step => step.success e

theorem Collates.ne_nil (hcollates : Collates blank calls rollout) :
    calls ≠ [] := by
  obtain ⟨slots, finalObs, endObs, hslots, hcollate⟩ := hcollates
  unfold collateCandidateTrajectory at hcollate
  rw [require_bind_eq_ok] at hcollate
  intro hnil
  rw [hnil, map_nil, map_eq_nil_iff] at hslots
  exact hcollate.1 hslots

theorem Collates.lookup (hcollates : Collates blank calls rollout)
    (key : String) (hkey : ∀ steps ∈ calls, (feedbackBatch steps).lookup key =
      some (feedbackField value steps)) :
    rollout.batch.lookup (labelled "next" key) =
      some (stackSteps (feedbackField value (calls.headD []))
        (calls.map (feedbackField value))) := by
  have hne := hcollates.ne_nil
  obtain ⟨slots, finalObs, endObs, hslots, hcollate⟩ := hcollates
  rw [lookup_next_of_collate hcollate, hslots, stackedField_feedback hkey hne]
  obtain ⟨steps, later, hcalls⟩ := exists_cons_of_ne_nil hne
  have hmem : feedbackBatch steps ∈
      slots.map fun slot => slot.feedback.batch := by
    rw [hslots, hcalls]
    exact mem_cons_self
  obtain ⟨slot, hslot, hbatch⟩ := mem_map.mp hmem
  refine ⟨slot, hslot, ?_⟩
  rw [hbatch, hkey steps (by rw [hcalls]; exact mem_cons_self)]
  rfl

theorem length_flatten_of_uniform (huniform : Uniform substeps calls) :
    calls.flatten.length = calls.length * substeps := by
  have hcounts : calls.map List.length =
      replicate (calls.map List.length).length substeps := by
    apply eq_replicate_of_mem
    intro count hcount
    obtain ⟨steps, hsteps, rfl⟩ := mem_map.mp hcount
    exact huniform.length steps hsteps
  rw [length_flatten, hcounts]
  simp

theorem terminalTrajectoryScores_eq_ok (ω : Type) {batch : Dict (Tensor ℚ)}
    (hscores : batch.lookup "next.score" = some scores)
    (hterminated : batch.lookup "next.terminated" = some terminated)
    (htruncated : batch.lookup "next.truncated" = some truncated)
    (hshape : (flattenTail scores).shape = (flattenTail terminated).shape) :
    (terminalTrajectoryScores batch : Except (TrainingError ω) (ℕ → ℚ)) =
        .ok (terminalScore scores terminated truncated) := by
  unfold terminalTrajectoryScores
  rw [Dict.fetch_eq_ok.mpr hscores, Dict.fetch_eq_ok.mpr hterminated,
    Dict.fetch_eq_ok.mpr htruncated]
  simp only [bind, Except.bind]
  rw [require_of hshape]
  rfl

theorem terminalScore_eq {steps : List (StepFeedback n)} (e : Fin n)
    (hne : steps ≠ [])
    (hshape : (flattenTail scores).shape = [n, steps.length])
    (hscores : ∀ position < steps.length,
      (flattenTail scores).entry [e.val, position] =
        (steps[position]?.map fun step => (step.score e).getD 0).getD 0)
    (hterminated : ∀ position < steps.length,
      (flattenTail terminated).entry [e.val, position] =
        (steps[position]?.map fun step => float (step.terminated e)).getD 0)
    (htruncated : ∀ position < steps.length,
      (flattenTail truncated).entry [e.val, position] =
        (steps[position]?.map fun step => float (step.truncated e)).getD 0) :
    terminalScore scores terminated truncated e = trajectoryScore steps e := by
  have hdones : (doneRow steps e).length = steps.length := length_map _
  have hsteps : (flattenTail scores).steps = steps.length := by
    unfold Tensor.steps
    rw [hshape]
    rfl
  have hpos : 0 < steps.length := length_pos_of_ne_nil hne
  unfold terminalScore trajectoryScore
  rw [if_neg hne, hsteps]
  generalize hflags : (fun position => decide
    ((flattenTail terminated).entry [e.val, position] ≠ 0 ∨
      (flattenTail truncated).entry [e.val, position] ≠ 0)) = flags
  have hrow : ∀ position < (doneRow steps e).length,
      flags position = (doneRow steps e).getD position false := by
    intro position hposition
    rw [hdones] at hposition
    rw [← hflags]
    dsimp only
    rw [hterminated position hposition, htruncated position hposition,
      getElem?_eq_getElem hposition]
    unfold doneRow
    rw [getD_eq_getElem _ _ (by simpa using hposition), getElem_map]
    simp only [Option.map_some, Option.getD_some, float_ne_zero]
    cases (steps[position]).terminated e with
    | true | false => simp
  rw [terminalOrLatestScore_eq (by simp [scoreRow, doneRow]) hrow, hdones]
  rw [hscores _ (terminalIndex_lt hpos)]
  unfold scoreRow
  rw [getD_eq_getElem?_getD, getElem?_map]

theorem anyOf_eq {steps : List (StepFeedback n)} (e : Fin n)
    (hshape : (flattenTail success).shape = [n, steps.length])
    (hsuccess : ∀ position < steps.length,
      (flattenTail success).entry [e.val, position] =
        (steps[position]?.map fun step => float (step.success e)).getD 0) :
    anyOf success e = steps.any fun step => step.success e := by
  have hsteps : (flattenTail success).steps = steps.length := by
    unfold Tensor.steps
    rw [hshape]
    rfl
  unfold anyOf
  rw [hsteps, Bool.eq_iff_iff, any_eq_true, any_eq_true]
  constructor
  · rintro ⟨position, hposition, hflag⟩
    have hrange := mem_range.mp hposition
    rw [hsuccess position hrange, getElem?_eq_getElem hrange] at hflag
    simp only [Option.map_some, Option.getD_some, float_ne_zero,
      decide_eq_true_eq] at hflag
    exact ⟨steps[position], getElem_mem hrange, hflag⟩
  · rintro ⟨step, hstep, hflag⟩
    obtain ⟨position, hrange, hposition⟩ := getElem_of_mem hstep
    refine ⟨position, mem_range.mpr hrange, ?_⟩
    rw [hsuccess position hrange, getElem?_eq_getElem hrange, hposition]
    simp [float_ne_zero, hflag]

theorem Collates.readOff (hcollates : Collates blank calls rollout)
    (huniform : Uniform substeps calls) (hpos : 0 < substeps) :
    ReadOff rollout calls.flatten := by
  have hne := hcollates.ne_nil
  have hlength := length_flatten_of_uniform huniform
  have hflatten : calls.flatten ≠ [] := by
    intro hnil
    rw [hnil, length_nil] at hlength
    have hcalls := length_pos_of_ne_nil hne
    have hproduct := Nat.mul_pos hcalls hpos
    omega
  have hscores : rollout.batch.lookup "next.score" = _ :=
    hcollates.lookup "score" fun steps hsteps =>
      feedbackBatch_score (huniform.scored steps hsteps)
  have hterminated : rollout.batch.lookup "next.terminated" = _ :=
    hcollates.lookup "terminated" fun steps _ => (feedbackBatch_flag steps).1
  have htruncated : rollout.batch.lookup "next.truncated" = _ :=
    hcollates.lookup "truncated" fun steps _ => (feedbackBatch_flag steps).2.1
  have hsuccess : rollout.batch.lookup "next.success" = _ :=
    hcollates.lookup "success" fun steps _ => (feedbackBatch_flag steps).2.2
  have hscoresFlat := flattenTail_stacked
    (fun step e => (step.score e).getD 0) huniform hne
  have hterminatedFlat := flattenTail_stacked
    (fun step e => float (step.terminated e)) huniform hne
  have htruncatedFlat := flattenTail_stacked
    (fun step e => float (step.truncated e)) huniform hne
  have hsuccessFlat := flattenTail_stacked
    (fun step e => float (step.success e)) huniform hne
  dsimp only at hscoresFlat hterminatedFlat htruncatedFlat hsuccessFlat
  rw [← hlength] at hscoresFlat hterminatedFlat htruncatedFlat hsuccessFlat
  constructor
  · have hread := terminalTrajectoryScores_eq_ok ω hscores hterminated
      htruncated (hscoresFlat.1.trans hterminatedFlat.1.symm)
    refine ⟨_, hread, ?_⟩
    intro e
    exact terminalScore_eq e hflatten hscoresFlat.1 (hscoresFlat.2 e)
      (hterminatedFlat.2 e) (htruncatedFlat.2 e)
  · refine ⟨_, hsuccess, ?_⟩
    intro e
    exact anyOf_eq e hsuccessFlat.1 (hsuccessFlat.2 e)

end Collated

end Collation
end VerlVla
