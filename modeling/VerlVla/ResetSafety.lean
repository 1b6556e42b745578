import Mathlib.Data.List.Induction
import VerlVla.BaseEnv

/-!
# Ended environments are reset before they are stepped

An environment is pending while the simulator has reported its end and has not
reset it.  A tick never steps a pending environment, because the flags it reads
cover all pending ones; chunk boundaries and snapshots clear a flag only
together with a reset.  A reset of the wrapper clears all flags, so it must
reset every flagged environment.
-/

namespace VerlVla
namespace BaseEnv

variable {n : ℕ} {A O : Type}

/-! ## What the simulator sees -/

def Stepped (e : Fin n) : BackendCall n A O → Prop
  | .step envIds _ _ _ _ => envIds e = true
  | .reset _ => False

def Ended (e : Fin n) : BackendCall n A O → Prop
  | .step envIds _ _ reply _ => envIds e = true ∧ (reply e).done = true
  | .reset _ => False

def IsReset (e : Fin n) : BackendCall n A O → Prop
  | .step _ _ _ _ _ => False
  | .reset envIds => e ∈ envIds

def Pending (e : Fin n) (calls : List (BackendCall n A O)) : Prop :=
  ∃ before call after, calls = before ++ call :: after ∧ Ended e call ∧
    ∀ later ∈ after, ¬IsReset e later

def NeverStepsEnded (calls : List (BackendCall n A O)) : Prop :=
  ∀ e before call after, calls = before ++ call :: after → Stepped e call →
    ¬Pending e before

section Calls

variable {e : Fin n} {calls : List (BackendCall n A O)}
  {call : BackendCall n A O}

theorem pending_snoc : Pending e (calls ++ [call]) ↔
    Ended e call ∨ Pending e calls ∧ ¬IsReset e call := by
  constructor
  · rintro ⟨before, ended, after, hcalls, hended, hafter⟩
    rcases List.eq_nil_or_concat' after with rfl | ⟨rest, last, rfl⟩
    · obtain ⟨_, hlast⟩ := List.append_inj' hcalls rfl
      rw [List.singleton_inj.mp hlast]
      exact .inl hended
    · rw [← List.cons_append, ← List.append_assoc] at hcalls
      obtain ⟨hbefore, hlast⟩ := List.append_inj' hcalls rfl
      rw [List.singleton_inj.mp hlast]
      refine .inr ⟨⟨before, ended, rest, hbefore, hended, ?_⟩, ?_⟩
      · intro later hlater
        exact hafter later (List.mem_append_left _ hlater)
      · exact hafter last (List.mem_append_right _ (List.mem_singleton_self _))
  · rintro (hended | ⟨⟨before, ended, after, rfl, hended, hafter⟩, hcall⟩)
    · exact ⟨calls, call, [], rfl, hended, by simp⟩
    · refine ⟨before, ended, after ++ [call], by simp, hended, ?_⟩
      intro later hlater
      rcases List.mem_append.mp hlater with hlater | hlater
      · exact hafter later hlater
      · rwa [List.mem_singleton.mp hlater]

theorem not_pending_nil : ¬Pending e ([] : List (BackendCall n A O)) := by
  rintro ⟨before, call, after, hnil, _⟩
  simp at hnil

theorem neverStepsEnded_nil :
    NeverStepsEnded ([] : List (BackendCall n A O)) := by
  intro e before call after hnil
  simp at hnil

theorem NeverStepsEnded.snoc (hsafe : NeverStepsEnded calls)
    (hcall : ∀ e, Stepped e call → ¬Pending e calls) :
    NeverStepsEnded (calls ++ [call]) := by
  intro e before stepped after hcalls hstepped
  rcases List.eq_nil_or_concat' after with rfl | ⟨rest, last, rfl⟩
  · obtain ⟨hbefore, hlast⟩ := List.append_inj' hcalls rfl
    rw [← hbefore]
    rw [← List.singleton_inj.mp hlast] at hstepped
    exact hcall e hstepped
  · rw [← List.cons_append, ← List.append_assoc] at hcalls
    obtain ⟨hbefore, _⟩ := List.append_inj' hcalls rfl
    exact hsafe e before stepped rest hbefore hstepped

theorem neverStepsEnded_snoc : NeverStepsEnded (calls ++ [call]) ↔
    NeverStepsEnded calls ∧ ∀ e, Stepped e call → ¬Pending e calls := by
  constructor
  · intro hsafe
    constructor
    · intro e before stepped after hcalls hstepped
      apply hsafe e before stepped (after ++ [call]) _ hstepped
      rw [hcalls, List.append_assoc, List.cons_append]
    · intro e hstepped
      exact hsafe e calls call [] rfl hstepped
  · rintro ⟨hsafe, hcall⟩
    exact hsafe.snoc hcall

theorem NeverStepsEnded.reset (hsafe : NeverStepsEnded calls)
    (envIds : List (Fin n)) :
    NeverStepsEnded (calls ++ [.reset envIds]) :=
  hsafe.snoc fun _ hstepped => hstepped.elim

theorem pending_reset :
    Pending e (calls ++ [.reset envIds]) ↔ Pending e calls ∧ e ∉ envIds := by
  rw [pending_snoc]
  simp [Ended, IsReset]

end Calls

def auditCall (audited : Mask n × Bool) : BackendCall n A O → Mask n × Bool
  | .step envIds _ _ reply _ =>
    (fun e => audited.1 e || (envIds e && (reply e).done),
      audited.2 || Mask.any fun e => envIds e && audited.1 e)
  | .reset envIds => (fun e => audited.1 e && !envIds.contains e, audited.2)

def audit (calls : List (BackendCall n A O)) : Mask n × Bool :=
  calls.foldl auditCall (noEnvs, false)

theorem audit_spec (calls : List (BackendCall n A O)) :
    (∀ e, (audit calls).1 e = true ↔ Pending e calls) ∧
      ((audit calls).2 = false ↔ NeverStepsEnded calls) := by
  induction calls using List.reverseRecOn with
  | nil =>
    constructor
    · intro e
      exact iff_of_false (by simp [audit, noEnvs]) not_pending_nil
    · exact iff_of_true rfl neverStepsEnded_nil
  | append_singleton calls call ih =>
    obtain ⟨hpending, hsafe⟩ := ih
    have hfold : audit (calls ++ [call]) = auditCall (audit calls) call := by
      rw [audit, List.foldl_append]
      rfl
    rw [hfold, neverStepsEnded_snoc, ← hsafe]
    constructor
    · intro e
      rw [pending_snoc, ← hpending]
      cases call with
      | step envIds action intervention reply result =>
        simp [auditCall, Ended, IsReset, or_comm]
      | reset envIds => simp [auditCall, Ended, IsReset]
    · simp only [← hpending]
      cases call with
      | step envIds action intervention reply result =>
        simp [auditCall, Stepped, Mask.any]
      | reset envIds => simp [auditCall, Stepped]

instance (calls : List (BackendCall n A O)) :
    Decidable (NeverStepsEnded calls) :=
  decidable_of_iff _ (audit_spec calls).2

theorem done_applyManualStepOverrides {e : Fin n} (hdone : (result e).done) :
    (applyManualStepOverrides tick result e).done := by
  unfold applyManualStepOverrides applyForceTruncated applyManualReward
  split_ifs <;> simp_all [StepRow.done]

def RowDone (env : EnvState n A O) (e : Fin n) : Prop :=
  ∃ rows, env.mergedStepResult = some rows ∧ (rows e).done = true

/-! ## One tick -/

/-- During a tick that began with these calls, the flags cover what is
pending; a new end is in the merged result. -/
structure TickTracked (start : List (BackendCall n A O))
    (env : EnvState n A O) (tick : TickState n A) : Prop where
  safe : NeverStepsEnded env.calls
  flags : ∀ e, tick.doneBeforeStep e → env.done e
  before : ∀ e, tick.doneBeforeStep e → tick.done e
  started : ∀ e, Pending e start → tick.doneBeforeStep e
  pending : ∀ e, Pending e env.calls → Pending e start ∨
    tick.doneBeforeStep e = false ∧ tick.done e ∧ RowDone env e

namespace TickTracked

theorem done_of_pending (htracked : TickTracked start env tick) {e : Fin n}
    (hpending : Pending e env.calls) : tick.done e := by
  rcases htracked.pending e hpending with hstart | ⟨_, hdone, _⟩
  · exact htracked.before e (htracked.started e hstart)
  · exact hdone

theorem safe_step (htracked : TickTracked start env tick)
    (hmask : ∀ e, executeMask e → tick.done e = false) :
    NeverStepsEnded (env.calls ++
      [.step executeMask tick.action isIntervention reply result]) := by
  apply htracked.safe.snoc
  intro e hstepped hpending
  have hlive := hmask e hstepped
  rw [htracked.done_of_pending hpending] at hlive
  cases hlive

theorem maskStep (htracked : TickTracked start env tick)
    (hmask : ∀ e, executeMask e → tick.done e = false)
    (hstep : BaseEnv.maskStep env tick executeMask isIntervention reply =
      .ok (next, nextTick)) :
    TickTracked start next nextTick := by
  obtain ⟨rfl, rfl⟩ := maskStep_eq_ok hstep
  constructor
  case safe => exact htracked.safe_step hmask
  case flags => exact htracked.flags
  case before =>
    intro e hbefore
    simp [htracked.before e hbefore]
  case started => exact htracked.started
  case pending =>
    intro e hpending
    rcases pending_snoc.mp hpending with ⟨hstepped, hended⟩ | ⟨hold, _⟩
    · right
      have hdone : (applyManualStepOverrides tick reply e).done :=
        done_applyManualStepOverrides hended
      refine ⟨?_, by simp [hstepped, hdone], ?_⟩
      · cases hbefore : tick.doneBeforeStep e with
        | false => rfl
        | true =>
          have hlive := hmask e hstepped
          rw [htracked.before e hbefore] at hlive
          cases hlive
      · refine ⟨_, rfl, ?_⟩
        rw [done_updateStepResult hstepped]
        exact hdone
    · rcases htracked.pending e hold with hstart | ⟨hbefore, hdone, rows,
        hrows, hrowDone⟩
      · exact .inl hstart
      · right
        refine ⟨hbefore, by simp [hdone], _, rfl, ?_⟩
        have hskipped : executeMask e = false := by
          cases hexecute : executeMask e with
          | false => rfl
          | true =>
            have hlive := hmask e hexecute
            simp [hdone] at hlive
        rw [hrows, updateStepResult_of_not_mem hskipped]
        exact hrowDone

end TickTracked

theorem tickTracked_invariant (start : List (BackendCall n A O)) :
    TickInvariant (TickTracked start) where
  step htracked hmask hstep := htracked.maskStep hmask hstep
  readCommands _ htracked := ⟨htracked.safe, htracked.flags,
    htracked.before, htracked.started, htracked.pending⟩
  takeOver _ _ htracked := ⟨htracked.safe, htracked.flags,
    htracked.before, htracked.started, htracked.pending⟩

/-- What a finished tick leaves: flags cover what is pending, and a new end is
reported by its feedback. -/
structure TickDone (start : List (BackendCall n A O))
    (env : EnvState n A O) (feedback : StepFeedback n) : Prop where
  safe : NeverStepsEnded env.calls
  flagged : ∀ e, Pending e env.calls → env.done e
  reported : ∀ e, Pending e env.calls → Pending e start ∨
    (feedback.terminated e || feedback.truncated e) = true

section Tick

theorem tickDone_of_finishes
    (hfinishes : FinishesTick (TickTracked start) next) :
    TickDone start next.1 next.2 := by
  obtain ⟨_, _, _, ⟨env, tick⟩, _, _, htracked, hpublish⟩ := hfinishes
  unfold publishStep at hpublish
  split at hpublish
  · cases hpublish
  next rows hrows =>
    cases hpublish
    have hcover : ∀ e, Pending e env.calls → Pending e start ∨
        tick.doneBeforeStep e = false ∧ (rows e).done = true := by
      intro e hpending
      rcases htracked.pending e hpending with hstart | ⟨hbefore, _, found,
        hfound, hdone⟩
      · exact .inl hstart
      · rw [hrows, Option.some.injEq] at hfound
        exact .inr ⟨hbefore, hfound ▸ hdone⟩
    constructor
    case safe => exact htracked.safe
    case flagged =>
      intro e hpending
      rcases hcover e hpending with hstart | ⟨_, hdone⟩
      · have hold : env.done e = true :=
          htracked.flags e (htracked.started e hstart)
        simp [hold]
      · simp [hdone]
    case reported =>
      intro e hpending
      rcases hcover e hpending with hstart | ⟨hbefore, hdone⟩
      · exact .inl hstart
      · right
        simpa [stepFeedback, hbefore, StepRow.done] using hdone

theorem safe_of_raises (hraises : RaisesInTick (TickTracked start) raised) :
    NeverStepsEnded raised.calls := by
  obtain ⟨env, tick, htracked, hcalls | ⟨_, _, _, _, hmask, hcalls⟩⟩ := hraises
  · rw [hcalls]
    exact htracked.safe
  · rw [hcalls]
    exact htracked.safe_step hmask

end Tick

/-! ## Whole ticks and chunks -/

structure Flagged (env : EnvState n A O) : Prop where
  safe : NeverStepsEnded env.calls
  flagged : ∀ e, Pending e env.calls → env.done e

section Chunk

theorem beginTick_tracked (henv : Flagged env) (action : Fin n → A)
    (chunkStarted : Bool) :
    TickTracked env.calls (beginTick env action chunkStarted).1
      (beginTick env action chunkStarted).2 :=
  ⟨henv.safe, fun _ hdone => hdone, fun _ hdone => hdone, henv.flagged,
    fun _ hpending => .inl hpending⟩

theorem TickDone.flagged_env (hdone : TickDone start env feedback) :
    Flagged env :=
  ⟨hdone.safe, hdone.flagged⟩

theorem executeSteps_done (henv : Flagged env)
    (hsteps : executeSteps env chunkStarted inputs = .ok next) :
    Flagged next.1 ∧ ∀ e, Pending e next.1.calls →
      Pending e env.calls ∨ doneInSlice next.2 e = true := by
  induction inputs generalizing env chunkStarted next with
  | nil =>
    cases hsteps
    exact ⟨henv, fun _ hpending => .inl hpending⟩
  | cons input inputs ih =>
    obtain ⟨ticked, htick, htail⟩ := bind_eq_ok.mp hsteps
    obtain ⟨rest, hrest, hpure⟩ := bind_eq_ok.mp htail
    cases hpure
    have hdone := tickDone_of_finishes
      ((tickTracked_invariant env.calls).stepWithTeleop_ok
        (beginTick_tracked henv input.action chunkStarted) htick)
    obtain ⟨hflagged, hreported⟩ := ih hdone.flagged_env hrest
    refine ⟨hflagged, ?_⟩
    intro e hpending
    rcases hreported e hpending with hticked | hlater
    · rcases hdone.reported e hticked with hstart | hnow
      · exact .inl hstart
      · right
        simp only [doneInSlice, List.any_cons, hnow, Bool.true_or]
    · right
      simp only [doneInSlice, List.any_cons, Bool.or_eq_true]
      exact .inr hlater

theorem executeSteps_raised (henv : Flagged env)
    (hsteps : executeSteps env chunkStarted inputs = .error raised) :
    NeverStepsEnded raised.calls := by
  induction inputs generalizing env chunkStarted with
  | nil => cases hsteps
  | cons input inputs ih =>
    have htracked := beginTick_tracked henv input.action chunkStarted
    rcases bind_eq_error.mp hsteps with htick | ⟨ticked, htick, hrest⟩
    · exact safe_of_raises
        ((tickTracked_invariant env.calls).stepWithTeleop_error htracked htick)
    · have hdone := tickDone_of_finishes
        ((tickTracked_invariant env.calls).stepWithTeleop_ok htracked htick)
      rcases bind_eq_error.mp hrest with hrest | ⟨rest, _, hpure⟩
      · exact ih hdone.flagged_env hrest
      · cases hpure

theorem mem_ids {mask : Mask n} {e : Fin n} : e ∈ mask.ids ↔ mask e := by
  simp [Mask.ids]

theorem any_iff {mask : Mask n} : mask.any ↔ ∃ e, mask e := by
  simp [Mask.any]

theorem resetDoneEnvs_calls (hsafe : NeverStepsEnded env.calls)
    (rows : Fin n → StepRow O) (resetMask : Mask n)
    (resetObs : Fin n → EnvObs O) :
    NeverStepsEnded (resetDoneEnvs config env rows resetMask resetObs).calls ∧
    ∀ e, Pending e (resetDoneEnvs config env rows resetMask
      resetObs).calls → Pending e env.calls ∧
        (config.autoReset → resetMask e = false) := by
  unfold resetDoneEnvs
  by_cases hreset : (config.autoReset && resetMask.any) = true
  · rw [if_pos hreset]
    refine ⟨hsafe.reset _, ?_⟩
    intro e hpending
    obtain ⟨hold, hnot⟩ := pending_reset.mp hpending
    rw [mem_ids, Bool.not_eq_true] at hnot
    exact ⟨hold, fun _ => hnot⟩
  · rw [if_neg hreset]
    refine ⟨hsafe, ?_⟩
    intro e hpending
    refine ⟨hpending, ?_⟩
    intro hauto
    rw [hauto, Bool.true_and, any_iff, not_exists] at hreset
    simpa using hreset e

theorem resetDoneEnvs_done (rows : Fin n → StepRow O) (resetMask : Mask n)
    (resetObs : Fin n → EnvObs O) :
    (resetDoneEnvs config env rows resetMask resetObs).done = env.done := by
  unfold resetDoneEnvs
  split_ifs <;> rfl

/-! ## Calls of the wrapper -/

def ResetsEnded (config : EnvConfig) (env : EnvState n A O)
    (options : ResetOptions n) : Prop :=
  ∀ e, env.done e = true → e ∈ resetIds config env options

/-- Between calls; with auto-reset nothing is pending after a serial chunk. -/
structure Quiet (config : EnvConfig) (env : EnvState n A O) : Prop where
  flagged : Flagged env
  clean : config.autoReset → ∀ e, ¬Pending e env.calls

theorem reset_clean (henv : Flagged env)
    (hended : ResetsEnded config env options) (resetObs : Fin n → EnvObs O) :
    NeverStepsEnded (reset config env options resetObs).calls ∧
    ∀ e, ¬Pending e (reset config env options resetObs).calls := by
  unfold ResetsEnded resetIds at hended
  unfold reset
  by_cases hcached : servesCached config env options = true
  · simp only [hcached, if_true] at hended ⊢
    refine ⟨henv.safe, ?_⟩
    intro e hpending
    exact List.not_mem_nil (hended e (henv.flagged e hpending))
  · simp only [hcached] at hended ⊢
    refine ⟨henv.safe.reset _, ?_⟩
    intro e hpending
    obtain ⟨hold, hnot⟩ := pending_reset.mp hpending
    exact hnot (hended e (henv.flagged e hold))

theorem reset_quiet (henv : Flagged env)
    (hended : ResetsEnded config env options) (resetObs : Fin n → EnvObs O) :
    Quiet config (reset config env options resetObs) := by
  obtain ⟨hsafe, hclean⟩ := reset_clean henv hended resetObs
  exact ⟨⟨hsafe, fun e hpending => absurd hpending (hclean e)⟩,
    fun _ => hclean⟩

theorem finishExecutionSlice_quiet (henv : Flagged env)
    (hreported : config.autoReset → ∀ e, Pending e env.calls →
      doneInSlice steps e = true)
    (hfinish : finishExecutionSlice config env steps fresh resetObs =
      .ok next) : Quiet config next := by
  unfold finishExecutionSlice at hfinish
  split at hfinish
  · cases hfinish
  next rows hrows =>
    cases hfinish
    obtain ⟨hsafe, hpending⟩ := resetDoneEnvs_calls henv.safe
      (finalizeExecutionObservation fresh rows)
      (fun e => doneInSlice steps e || env.restartEpisode e) resetObs
    have hclean : config.autoReset → ∀ e, ¬Pending e
        (resetDoneEnvs config env (finalizeExecutionObservation fresh rows)
          (fun e => doneInSlice steps e || env.restartEpisode e)
          resetObs).calls := by
      intro hauto e hstill
      obtain ⟨hold, hmask⟩ := hpending e hstill
      have hmask := hmask hauto
      simp [hreported hauto e hold] at hmask
    refine ⟨⟨hsafe, ?_⟩, hclean⟩
    intro e hstill
    by_cases hauto : config.autoReset = true
    · exact absurd hstill (hclean hauto e)
    · obtain ⟨hold, _⟩ := hpending e hstill
      show (if config.autoReset = true then noEnvs else
        (resetDoneEnvs config env _ _ resetObs).done) e = true
      rw [if_neg hauto, resetDoneEnvs_done]
      exact henv.flagged e hold

theorem serialStep_quiet (henv : Quiet config env)
    (hstep : serialStep config env inputs fresh resetObs = .ok next) :
    Quiet config next.1 := by
  obtain ⟨executed, hexecuted, hrest⟩ := bind_eq_ok.mp hstep
  obtain ⟨finished, hfinished, hpure⟩ := bind_eq_ok.mp hrest
  cases hpure
  obtain ⟨hflagged, hreported⟩ := executeSteps_done henv.flagged hexecuted
  apply finishExecutionSlice_quiet hflagged _ hfinished
  intro hauto e hpending
  exact (hreported e hpending).resolve_left (henv.clean hauto e)

theorem serialStep_raised (henv : Quiet config env)
    (hstep : serialStep config env inputs fresh resetObs = .error raised) :
    NeverStepsEnded raised.calls := by
  rcases bind_eq_error.mp hstep with hsteps | ⟨executed, hexecuted, hrest⟩
  · exact executeSteps_raised henv.flagged hsteps
  · obtain ⟨hflagged, _⟩ := executeSteps_done henv.flagged hexecuted
    rcases bind_eq_error.mp hrest with hfinish | ⟨finished, _, hpure⟩
    · unfold finishExecutionSlice at hfinish
      split at hfinish
      · cases hfinish
        exact hflagged.safe
      · cases hfinish
    · cases hpure

end Chunk

end BaseEnv
end VerlVla
