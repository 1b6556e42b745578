import VerlVla.AsyncExecutor

/-!
# Snapshots and steps in flight

While an exchange waits, the control thread is parked at the return target, so
a waiting exchange takes its snapshot between two steps.  An exchange that
finds its target already met takes the snapshot at once, whatever the control
thread is doing.  A run is safe exactly if no such exchange is entered while a
step is in flight.
-/

namespace VerlVla
namespace AsyncExecutor

open Transition

variable {A V : Type} [AddCommGroup A] [Module ℚ A]
  [AddCommGroup V] [Module ℚ V] {config : ExecutorConfig}

def takesSnapshot (event : ExecutorEvent A V) : Prop :=
  ∃ feedbackSteps outcome, event.output = .snapshot feedbackSteps outcome

def resetsEnvironments (event : ExecutorEvent A V) : Prop :=
  ∃ feedbackSteps outcome, event.output = .snapshot feedbackSteps outcome ∧
    outcome.resets = true

def finishesStep : Label A V → Bool
  | .complete => true
  | .fail => true
  | _ => false

/-- No snapshot overlaps a step, and no action popped before a snapshot that
resets environments is still being applied after it. -/
structure SnapshotSafe (events : List (ExecutorEvent A V)) : Prop where
  quiescent : ∀ event ∈ events, takesSnapshot event →
    event.before.inStep = false
  applied : ∀ left popped middle snapshot right,
    events = left ++ popped :: (middle ++ snapshot :: right) →
    popped.label = .pop → resetsEnvironments snapshot →
    ∃ event ∈ middle, finishesStep event.label = true

/-- An exchange entered during a step although its target is already met. -/
def lateExchange (config : ExecutorConfig) (event : ExecutorEvent A V) :
    Prop :=
  match event.label with
  | .exchange actions values _ =>
    config.checkExchange event.before actions values = .ok () ∧
      event.before.inStep = true ∧
      config.target event.before ≤ event.before.completedSteps
  | _ => False

instance (config : ExecutorConfig) (event : ExecutorEvent A V) :
    Decidable (lateExchange config event) := by
  unfold lateExchange
  split <;> infer_instance

/-- While an exchange waits, no step runs past its return target. -/
def Parked (state : ExecutorState A V) : Prop :=
  ∀ target ∈ state.returnTarget, state.exchanging ≠ none →
    state.completedSteps ≤ target ∧
      (state.inStep = true → state.completedSteps < target)

variable {before after : ExecutorState A V} {output : Output A V}
  {events : List (ExecutorEvent A V)}

theorem Effect.parked (heffect : Effect config before label output after)
    (hparked : Parked before) : Parked after := by
  intro target htarget hexchanging
  cases heffect with
  | rejected _ => exact hparked target htarget hexchanging
  | waits _ hlow =>
    have heq : config.target before = target := by
      simpa [ExecutorState.replaceQueue] using htarget
    rw [← heq]
    exact ⟨hlow.le, fun _ => hlow⟩
  | immediate _ _ | returns _ _ _ =>
    exact absurd (takeSnapshot_exchanging ..) hexchanging
  | gaveUp _ => exact absurd rfl hexchanging
  | popped _ hmay =>
    have hlow := hmay.2.2.2.2 target htarget
    exact ⟨hlow.le, fun _ => hlow⟩
  | completed hstep =>
    have hbefore := (hparked target htarget hexchanging).2 hstep
    constructor
    · exact hbefore
    · exact nofun
  | failed _ =>
    have hbefore := (hparked target htarget hexchanging).1
    constructor
    · exact hbefore
    · exact nofun
  | resetWaits _ | resets _ => cases htarget
  | finishesReset hstep =>
    constructor
    · exact Nat.zero_le _
    · intro hafter
      rw [show before.inStep = true from hafter] at hstep
      cases hstep
  | closes => exact hparked target htarget hexchanging

theorem ExecutorRun.parked (hrun : ExecutorRun config events final) :
    Parked final := by
  apply hrun.invariant Parked
  · intro state label output next hparked hstep
    exact (Effect.of_step hstep).parked hparked
  · exact nofun

theorem Effect.snapshot_inStep
    (heffect : Effect config before label output after)
    (hparked : Parked before)
    (houtput : output = .snapshot feedbackSteps outcome)
    (hstep : before.inStep = true) :
    lateExchange config ⟨before, label, output, after⟩ := by
  cases heffect with
  | immediate hcheck htarget =>
    exact ⟨hcheck, hstep, htarget⟩
  | returns hexchanging hreturn htarget =>
    have hlow := (hparked _ hreturn (by simp [hexchanging])).2 hstep
    omega
  | finishesReset hidle | resets hidle =>
    simp [hstep] at hidle
  | _ => cases houtput

theorem Effect.inStep_of_pop (heffect : Effect config before .pop output after) :
    after.inStep = true := by
  cases heffect with
  | popped _ _ => rfl

theorem Effect.snapshot_of_target
    (heffect : Effect config before (.exchange actions values outcome) output
      after) (hcheck : config.checkExchange before actions values = .ok ())
    (htarget : config.target before ≤ before.completedSteps) :
    output = .snapshot actions.length outcome := by
  cases heffect with
  | rejected herror =>
    simp [hcheck] at herror
  | waits _ hlow => omega
  | immediate _ _ => exact takeSnapshot_output ..

theorem Effect.inStep_of_not_finishes
    (heffect : Effect config before label output after)
    (hlabel : finishesStep label = false) (hstep : before.inStep = true) :
    after.inStep = true := by
  cases heffect with
  | @immediate actions values outcome _ _ | @returns outcome _ _ _ _ _ =>
    cases outcome <;> exact hstep
  | completed _ | failed _ => cases hlabel
  | popped _ _ => rfl
  | _ => exact hstep

theorem finished_between (hrun : Run (executor A V config) start events final)
    (hstart : start.inStep = true) (hfinal : final.inStep = false) :
    ∃ event ∈ events, finishesStep event.label = true := by
  by_contra hnone
  have hkeeps : final.inStep = true := by
    apply hrun.guarded_invariant (fun _ label => finishesStep label = false)
      fun state => state.inStep = true
    · intro state label output next hstep hlabel hmachine
      exact (Effect.of_step hmachine).inStep_of_not_finishes hlabel hstep
    · intro event hevent
      by_contra hfinishes
      exact hnone ⟨event, hevent, by simpa using hfinishes⟩
    · exact hstart
  simp [hkeeps] at hfinal

theorem SnapshotSafe.of_quiescent (hrun : ExecutorRun config events final)
    (hquiescent : ∀ event ∈ events, takesSnapshot event →
      event.before.inStep = false) : SnapshotSafe events := by
  refine ⟨hquiescent, ?_⟩
  intro left popped middle snapshot right hevents hpop hresets
  subst hevents
  have hafterPop := hrun.at_event
  have hmiddle := hafterPop.2.2.at_event
  have hinStep : popped.after.inStep = true := by
    have heffect := Effect.of_step hafterPop.2.1
    rw [hpop] at heffect
    exact heffect.inStep_of_pop
  rcases hresets with ⟨feedbackSteps, outcome, houtput, _⟩
  have hidle := hquiescent snapshot (by simp) ⟨feedbackSteps, outcome, houtput⟩
  exact finished_between hmiddle.1 hinStep hidle

/-- Snapshots are safe in a run exactly if no exchange of the run is entered
during a step with its return target already met. -/
theorem snapshot_safe_iff {events : List (ExecutorEvent A V)}
    {final : ExecutorState A V} (hrun : ExecutorRun config events final) :
    SnapshotSafe events ↔ ∀ event ∈ events, ¬lateExchange config event := by
  constructor
  · intro hsafe event hevent hlate
    unfold lateExchange at hlate
    split at hlate
    next actions values outcome hlabel =>
      rcases hlate with ⟨hcheck, hstep, htarget⟩
      have hmachine := hrun.step_of_mem hevent
      rw [hlabel] at hmachine
      have houtput :=
        (Effect.of_step hmachine).snapshot_of_target hcheck htarget
      rw [hsafe.quiescent event hevent ⟨_, _, houtput⟩] at hstep
      cases hstep
    next => exact hlate
  · intro hlate
    apply SnapshotSafe.of_quiescent hrun
    intro event hevent hsnapshot
    rcases hsnapshot with ⟨feedbackSteps, outcome, houtput⟩
    rcases List.append_of_mem hevent with ⟨left, right, rfl⟩
    have hcut := hrun.at_event
    by_contra hstep
    apply hlate event hevent
    exact (Effect.of_step hcut.2.1).snapshot_inStep
      (ExecutorRun.parked hcut.1) houtput (by simpa using hstep)

def resetAll : SnapshotOutcome := .returned [true]

/-- The policy is slower than the executor: the second exchange is entered
while the third tick of the first chunk is executed. -/
def slowPolicyLabels : List (Label ℚ ℚ) :=
  [.exchange [1, 2, 3] [0, 0, 0] (.returned [false]), .pop, .complete,
    .wake (.returned [false]), .pop, .complete, .pop,
    .exchange [4] [0] resetAll]

theorem slowPolicy_exec : (eagerExec slowPolicyLabels).isSome := by
  decide +kernel

def overlaps (event : ExecutorEvent A V) : Bool := match event.output with
  | .snapshot _ outcome => outcome.resets && event.before.inStep
  | _ => false

theorem slowPolicy_overlaps :
    ((eagerExec slowPolicyLabels).get slowPolicy_exec).1.any overlaps =
      true := by
  decide +kernel

theorem snapshot_during_step :
    ∃ (events : List (ExecutorEvent ℚ ℚ)) (final : ExecutorState ℚ ℚ),
      ExecutorRun eagerConfig events final ∧
      (∃ event ∈ events, resetsEnvironments event ∧
        event.before.inStep = true) ∧
      ¬SnapshotSafe events := by
  rcases List.any_eq_true.mp slowPolicy_overlaps with
    ⟨event, hevent, hoverlaps⟩
  have hsnapshot : resetsEnvironments event ∧ event.before.inStep = true := by
    unfold overlaps at hoverlaps
    split at hoverlaps
    next feedbackSteps outcome houtput =>
      simp only [Bool.and_eq_true] at hoverlaps
      exact ⟨⟨_, _, houtput, hoverlaps.1⟩, hoverlaps.2⟩
    next => cases hoverlaps
  refine ⟨_, _, eagerExec_run slowPolicy_exec, ⟨event, hevent, hsnapshot⟩, ?_⟩
  intro hsafe
  rcases hsnapshot with ⟨⟨feedbackSteps, outcome, houtput, _⟩, hstep⟩
  rw [hsafe.quiescent event hevent ⟨_, _, houtput⟩] at hstep
  cases hstep

/-- The second exchange arrives before the next tick is popped. -/
def fastPolicyLabels : List (Label ℚ ℚ) :=
  [.exchange [1, 2] [0, 0] (.returned [false]), .pop, .complete,
    .wake (.returned [false]), .exchange [4] [0] resetAll]

theorem fastPolicy_exec : (eagerExec fastPolicyLabels).isSome := by
  decide +kernel

theorem snapshot_safe_fast_policy :
    SnapshotSafe ((eagerExec fastPolicyLabels).get fastPolicy_exec).1 := by
  apply (snapshot_safe_iff (eagerExec_run fastPolicy_exec)).mpr
  decide +kernel

end AsyncExecutor
end VerlVla
