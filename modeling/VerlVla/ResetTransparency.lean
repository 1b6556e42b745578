import Mathlib.Algebra.Order.Ring.Rat
import Mathlib.Tactic.NormNum
import VerlVla.ResetRecovery
import VerlVla.ShardedStream

/-!
# Resets with and without timeouts

Between two resets the process serves the state that a process launched from
the saved state would serve.  A reset under way is therefore in one of a few
situations, and every timeout leads back to the first of them.
-/

namespace VerlVla

open SimulatorRpc Transition

variable {topology : EnvTopology} {config : RoboDojoConfig} {slot : EnvSlot}
  {policy : RecoveryPolicy}

/-! ## Resets that never time out -/

def idealState (config : RoboDojoConfig) (slot : EnvSlot)
    (state : CaseState topology) (requests : List (Option ResetOptions)) :
    CaseState topology :=
  requests.foldl (fun current options => (resetWith config slot current options).2)
    state

def idealBoundaries (config : RoboDojoConfig) (slot : EnvSlot) :
    CaseState topology → List (Option ResetOptions) →
      List (RoboDojoValue × Option RoboDojoValue)
  | _, [] => []
  | state, options :: rest =>
    let (selected, next) := resetWith config slot state options
    (.cases selected, some (.cursors next.getState)) ::
      idealBoundaries config slot next rest

theorem idealState_snoc (state : CaseState topology)
    (requests : List (Option ResetOptions)) (options : Option ResetOptions) :
    idealState config slot state (requests ++ [options]) =
      (resetWith config slot (idealState config slot state requests)
        options).2 := by
  simp [idealState]

theorem idealBoundaries_snoc (state : CaseState topology)
    (requests : List (Option ResetOptions)) (options : Option ResetOptions) :
    idealBoundaries config slot state (requests ++ [options]) =
      idealBoundaries config slot state requests ++
        [(.cases (resetWith config slot
            (idealState config slot state requests) options).1,
          some (.cursors (idealState config slot state
            (requests ++ [options])).getState))] := by
  induction requests generalizing state with
  | nil => rfl
  | cons first rest ih =>
    simp only [List.cons_append, idealBoundaries]
    rw [ih]
    rfl

theorem idealBoundaries_prefix_append (state : CaseState topology)
    (requests later : List (Option ResetOptions)) :
    idealBoundaries config slot state requests <+:
      idealBoundaries config slot state (requests ++ later) := by
  induction requests generalizing state with
  | nil => exact List.nil_prefix
  | cons first rest ih =>
    simp only [List.cons_append, idealBoundaries]
    exact List.prefix_append_right_inj [_] |>.mpr (ih _)

/-- A process launched from the cursors of a state without evaluation cases of
its own serves that state. -/
theorem launch_saved (hruntime : state.runtimeEval = none) :
    (roboDojoAdapter config slot).launch (some (.cursors state.getState)) =
      .ok state := by
  obtain ⟨trainCursor, evalCursor, runtimeEval⟩ := state
  obtain rfl := hruntime
  rfl

theorem resetWith_runtimeEval (slot : EnvSlot) (state : CaseState topology)
    (options : Option ResetOptions) :
    (resetWith config slot state options).2.runtimeEval = state.runtimeEval :=
  CaseState.perform_reset_runtimeEval slot state _ _

/-! ## The situations of a reset under way -/

def servedBy (state : CaseState topology)
    (commands : List (Command (Option ResetOptions)))
    (responses : List (Response RoboDojoValue)) :
    Option (SimulatorProcess (CaseState topology) (Option ResetOptions)
      RoboDojoValue) :=
  some ⟨.serving state, commands, responses⟩

/-- The process of a recovered simulator that completed its resets in a state,
with the reset under way. -/
inductive Progress (config : RoboDojoConfig) (slot : EnvSlot)
    (policy : RecoveryPolicy) (state : CaseState topology)
    (buffer : Option RoboDojoValue) :
    RoboDojoState topology → Option (Option ResetOptions) → Prop
  | idle (cold : Bool) : Progress config slot policy state buffer
        ⟨⟨servedBy state [] [], buffer, cold, none⟩, .idle⟩ none
  | stepAsked (cold : Bool) (action : Option ResetOptions) :
      Progress config slot policy state buffer
        ⟨⟨servedBy state [⟨"step", action⟩] [], buffer, cold,
          some (.call ⟨"step", action⟩ none)⟩, .stepping⟩ none
  | stepAnswered (cold : Bool) (action : Option ResetOptions) :
      Progress config slot policy state buffer
        ⟨⟨servedBy state [] [.success .none], buffer, cold,
          some (.call ⟨"step", action⟩ none)⟩, .stepping⟩ none
  | resetAsked (cold : Bool) (options : Option ResetOptions) (restarts : ℕ) :
      Progress config slot policy state buffer
        ⟨⟨servedBy state [⟨"reset", options⟩] [], buffer, cold,
          some (.call ⟨"reset", options⟩ (some policy.timeout))⟩,
          .resetting options restarts⟩ (some options)
  | resetAnswered (cold : Bool) (options : Option ResetOptions)
      (restarts : ℕ) :
      Progress config slot policy state buffer
        ⟨⟨servedBy (resetWith config slot state options).2 []
            [.success (.cases (resetWith config slot state options).1)],
          buffer, cold,
          some (.call ⟨"reset", options⟩ (some policy.timeout))⟩,
          .resetting options restarts⟩ (some options)
  | stateAsked (cold : Bool) (options : Option ResetOptions) (restarts : ℕ) :
      Progress config slot policy state buffer
        ⟨⟨servedBy (resetWith config slot state options).2
            [⟨"get_state", none⟩] [], buffer, cold,
          some (.snapshotState (min policy.timeout 30))⟩,
          .snapshotting options restarts
            (.cases (resetWith config slot state options).1)⟩ (some options)
  | stateAnswered (cold : Bool) (options : Option ResetOptions)
      (restarts : ℕ) :
      Progress config slot policy state buffer
        ⟨⟨servedBy (resetWith config slot state options).2 []
            [.success (.cursors
              (resetWith config slot state options).2.getState)],
          buffer, cold, some (.snapshotState (min policy.timeout 30))⟩,
          .snapshotting options restarts
            (.cases (resetWith config slot state options).1)⟩ (some options)
  | launching (cold : Bool) (options : Option ResetOptions) (restarts : ℕ) :
      Progress config slot policy state buffer
        ⟨⟨some ⟨.starting buffer, [], []⟩, buffer, cold,
          some .startSimulator⟩, .restarting options restarts⟩ (some options)
  | launched (cold : Bool) (options : Option ResetOptions) (restarts : ℕ) :
      Progress config slot policy state buffer
        ⟨⟨servedBy state [] [.ready], buffer, cold, some .startSimulator⟩,
          .restarting options restarts⟩ (some options)

/-- What one step does to the resets completed and to the one under way. -/
inductive Advance (config : RoboDojoConfig) (slot : EnvSlot)
    (policy : RecoveryPolicy) (state : CaseState topology)
    (buffer : Option RoboDojoValue) (current : Option (Option ResetOptions))
    (label : RecoveryLabel (Option ResetOptions))
    (output : RecoveryOutput RoboDojoValue) (next : RoboDojoState topology) :
    Prop
  | inside (hlabel : requestOf label = none)
      (houtput : ∀ result restarts, output ≠ .returned result restarts)
      (hnext : Progress config slot policy state buffer next current)
  | requested (options : Option ResetOptions)
      (hlabel : label = .reset options) (hcurrent : current = none)
      (houtput : output = .silent)
      (hnext : Progress config slot policy state buffer next (some options))
  | completed (options : Option ResetOptions) (restarts : ℕ)
      (hlabel : requestOf label = none) (hcurrent : current = some options)
      (houtput : output = .returned
        (.cases (resetWith config slot state options).1) restarts)
      (hbuffer : next.manager.stateBuffer = some (.cursors
        (resetWith config slot state options).2.getState))
      (hnext : Progress config slot policy
        (resetWith config slot state options).2
        (some (.cursors (resetWith config slot state options).2.getState))
        next none)

section Steps

variable {buffer : Option RoboDojoValue}

theorem callReset_eq (options : Option ResetOptions) (restarts : ℕ) :
    RecoveryState.callReset (roboDojoAdapter config slot) policy
        ⟨servedBy state [] [], buffer, cold, none⟩ options restarts =
      (.silent, ⟨⟨servedBy state [⟨"reset", options⟩] [], buffer, cold,
        some (.call ⟨"reset", options⟩ (some policy.timeout))⟩,
        .resetting options restarts⟩) := by
  have htimeout : ¬policy.timeout ≤ 0 := not_le.mpr policy.timeout_pos
  simp [RecoveryState.callReset, RecoveryState.enter, EnvManager.issue,
    EnvManager.running, servedBy, SimulatorProcess.isAlive, EnvManager.send,
    SimulatorProcess.put, htimeout]

theorem snapshot_eq (options : Option ResetOptions) (restarts : ℕ)
    (result : RoboDojoValue) :
    RecoveryState.snapshot (roboDojoAdapter config slot) policy
        ⟨servedBy state [] [], buffer, cold, none⟩ options restarts result =
      (.silent, ⟨⟨servedBy state [⟨"get_state", none⟩] [], buffer, cold,
        some (.snapshotState (min policy.timeout 30))⟩,
        .snapshotting options restarts result⟩) := by
  have htimeout : ¬min policy.timeout 30 ≤ 0 := by
    rw [min_le_iff, not_or]
    exact ⟨not_le.mpr policy.timeout_pos, by norm_num⟩
  simp only [RecoveryState.snapshot, RecoveryState.enter, EnvManager.issue,
    EnvManager.running, servedBy, SimulatorProcess.isAlive, if_true,
    if_neg htimeout]
  rfl

theorem recover_eq (hrestarts : restarts < policy.maxProcessRestarts) :
    RecoveryState.recover (roboDojoAdapter config slot) policy manager options
        restarts error =
      (.silent, ⟨⟨some ⟨.starting manager.stateBuffer, [], []⟩,
        manager.stateBuffer, manager.coldStartPending,
        some .startSimulator⟩, .restarting options (restarts + 1)⟩) := by
  rw [RecoveryState.recover, if_neg (Nat.not_le.mpr hrestarts)]
  rfl

end Steps

theorem progress_advance {state : CaseState topology}
    {buffer : Option RoboDojoValue} {current : Option (Option ResetOptions)}
    {before next : RoboDojoState topology}
    {label : RecoveryLabel (Option ResetOptions)}
    {output : RecoveryOutput RoboDojoValue}
    (hprogress : Progress config slot policy state buffer before current)
    (hlaunch : (roboDojoAdapter config slot).launch buffer = .ok state)
    (hallowed : TimeoutAllowed policy before label)
    (hstep : (recovery (roboDojoAdapter config slot) policy).step before
      label = some (output, next)) :
    Advance config slot policy state buffer current label output next := by
  cases hprogress with
  | idle cold =>
    cases label with
    | reset options =>
      have hnext := hstep.symm.trans (congrArg some (callReset_eq options 0))
      cases hnext
      exact .requested options rfl rfl rfl (.resetAsked _ _ _)
    | step action =>
      cases hstep
      exact .inside rfl nofun (.stepAsked _ _)
    | launch | serve | receive | expire => cases hstep
  | stepAsked cold action =>
    cases label with
    | serve =>
      cases hstep
      exact .inside rfl nofun (.stepAnswered _ _)
    | reset options | step action | launch | receive | expire => cases hstep
  | stepAnswered cold action =>
    cases label with
    | receive =>
      cases hstep
      exact .inside rfl nofun (.idle _)
    | reset options | step action | launch | serve | expire => cases hstep
  | resetAsked cold options restarts =>
    cases label with
    | serve =>
      cases hstep
      exact .inside rfl nofun (.resetAnswered _ _ _)
    | expire =>
      have hnext := hstep.symm.trans (congrArg some (recover_eq hallowed))
      cases hnext
      exact .inside rfl nofun (.launching _ _ _)
    | reset options | step action | launch | receive => cases hstep
  | resetAnswered cold options restarts =>
    cases label with
    | receive =>
      have hnext := hstep.symm.trans
        (congrArg some (snapshot_eq options restarts _))
      cases hnext
      exact .inside rfl nofun (.stateAsked _ _ _)
    | expire =>
      have hnext := hstep.symm.trans (congrArg some (recover_eq hallowed))
      cases hnext
      exact .inside rfl nofun (.launching _ _ _)
    | reset options | step action | launch | serve => cases hstep
  | stateAsked cold options restarts =>
    cases label with
    | serve =>
      cases hstep
      exact .inside rfl nofun (.stateAnswered _ _ _)
    | expire =>
      have hnext := hstep.symm.trans (congrArg some (recover_eq hallowed))
      cases hnext
      exact .inside rfl nofun (.launching _ _ _)
    | reset options | step action | launch | receive => cases hstep
  | stateAnswered cold options restarts =>
    cases label with
    | receive =>
      cases hstep
      exact .completed options restarts rfl rfl rfl rfl (.idle _)
    | expire =>
      have hnext := hstep.symm.trans (congrArg some (recover_eq hallowed))
      cases hnext
      exact .inside rfl nofun (.launching _ _ _)
    | reset options | step action | launch | serve => cases hstep
  | launching cold options restarts =>
    cases label with
    | launch =>
      simp only [recovery, RecoveryState.step, EnvManager.step,
        Option.bind_some, SimulatorProcess.launch, hlaunch] at hstep
      cases hstep
      exact .inside rfl nofun (.launched _ _ _)
    | expire => exact hallowed.elim
    | reset options | step action | serve | receive => cases hstep
  | launched cold options restarts =>
    cases label with
    | receive =>
      have hnext := hstep.symm.trans
        (congrArg some (callReset_eq options restarts))
      cases hnext
      exact .inside rfl nofun (.resetAsked _ _ _)
    | expire => exact hallowed.elim
    | reset options | step action | launch | serve => cases hstep

/-! ## Whole runs -/

theorem requests_snoc (events : List (RoboDojoEvent topology))
    (event : RoboDojoEvent topology) :
    requests (events ++ [event]) =
      requests events ++ (requestOf event.label).toList := by
  unfold requests
  rw [List.filterMap_append]
  cases hrequest : requestOf event.label <;> simp [hrequest]

theorem boundaries_snoc (events : List (RoboDojoEvent topology))
    (event : RoboDojoEvent topology) :
    boundaries (events ++ [event]) =
      boundaries events ++ (boundaryOf event).toList := by
  unfold boundaries
  rw [List.filterMap_append]
  cases hboundary : boundaryOf event <;> simp [hboundary]

theorem boundaryOf_eq_none {event : RoboDojoEvent topology}
    (houtput : ∀ result restarts, event.output ≠ .returned result restarts) :
    boundaryOf event = none := by
  unfold boundaryOf
  cases hcase : event.output with
  | returned result restarts => exact absurd hcase (houtput result restarts)
  | silent | stepped value | raised error => rfl

/-- After a run the completed resets are those of the ideal simulator. -/
structure Recovered (config : RoboDojoConfig) (slot : EnvSlot)
    (policy : RecoveryPolicy) (start : CaseState topology)
    (events : List (RoboDojoEvent topology)) (final : RoboDojoState topology)
    (completed : List (Option ResetOptions))
    (current : Option (Option ResetOptions)) : Prop where
  requested : requests events = completed ++ current.toList
  returned : boundaries events = idealBoundaries config slot start completed
  progress : ∃ buffer,
    Progress config slot policy (idealState config slot start completed)
      buffer final current ∧
    (roboDojoAdapter config slot).launch buffer =
      .ok (idealState config slot start completed)
  runtime : (idealState config slot start completed).runtimeEval = none

theorem launch_started (saved : Option CaseCursors) :
    (roboDojoAdapter config slot : Adapter (CaseState topology) _ _).launch
        (saved.map .cursors) = .ok (launchedState config saved) := by
  cases saved with
  | none | some cursors => rfl

theorem recovered_started (saved : Option CaseCursors) :
    Recovered config slot policy
      (launchedState config saved : CaseState topology) []
      (startedSimulator config saved) [] none where
  requested := rfl
  returned := rfl
  progress := ⟨saved.map .cursors, .idle true, launch_started saved⟩
  runtime := by
    cases saved with
    | none | some cursors => rfl

theorem recovered_snoc {start : CaseState topology}
    {events : List (RoboDojoEvent topology)}
    {before next : RoboDojoState topology}
    {completed : List (Option ResetOptions)}
    {current : Option (Option ResetOptions)}
    {label : RecoveryLabel (Option ResetOptions)}
    {output : RecoveryOutput RoboDojoValue}
    (hprior : Recovered config slot policy start events before completed
      current)
    (hallowed : TimeoutAllowed policy before label)
    (hstep : (recovery (roboDojoAdapter config slot) policy).step before
      label = some (output, next)) :
    ∃ completed' current', Recovered config slot policy start
      (events ++ [⟨before, label, output, next⟩]) next completed'
      current' := by
  obtain ⟨buffer, hprogress, hlaunch⟩ := hprior.progress
  cases progress_advance hprogress hlaunch hallowed hstep with
  | inside hlabel houtput hnext =>
    refine ⟨completed, current, ?_, ?_, ⟨buffer, hnext, hlaunch⟩,
      hprior.runtime⟩
    · rw [requests_snoc, hlabel, hprior.requested]
      simp
    · rw [boundaries_snoc, boundaryOf_eq_none houtput, hprior.returned]
      simp
  | requested options hlabel hcurrent houtput hnext =>
    subst hlabel hcurrent houtput
    refine ⟨completed, some options, ?_, ?_, ⟨buffer, hnext, hlaunch⟩,
      hprior.runtime⟩
    · rw [requests_snoc, hprior.requested]
      simp [requestOf]
    · rw [boundaries_snoc, hprior.returned]
      simp [boundaryOf]
  | completed options restarts hlabel hcurrent houtput hbuffer hnext =>
    subst hcurrent houtput
    have hruntime : (resetWith config slot
        (idealState config slot start completed) options).2.runtimeEval =
          none := by
      rw [resetWith_runtimeEval]
      exact hprior.runtime
    refine ⟨completed ++ [options], none, ?_, ?_, ?_, ?_⟩
    · rw [requests_snoc, hlabel, hprior.requested]
      simp
    · rw [boundaries_snoc, hprior.returned, idealBoundaries_snoc,
        idealState_snoc]
      simp [boundaryOf, hbuffer]
    · rw [idealState_snoc]
      exact ⟨_, hnext, launch_saved hruntime⟩
    · rw [idealState_snoc]
      exact hruntime

theorem recovered_run {saved : Option CaseCursors}
    {events : List (RoboDojoEvent topology)}
    {final : RoboDojoState topology}
    (hrun : Run (recovery (roboDojoAdapter config slot) policy)
      (startedSimulator config saved) events final)
    (hallowed : ∀ event ∈ events,
      TimeoutAllowed policy event.before event.label) :
    ∃ completed current, Recovered config slot policy
      (launchedState config saved) events final completed current := by
  induction hrun with
  | nil => exact ⟨[], none, recovered_started saved⟩
  | snoc _ hstep ih =>
    obtain ⟨completed, current, hprior⟩ :=
      ih fun event hevent => hallowed event (List.mem_append_left _ hevent)
    exact recovered_snoc hprior
      (hallowed _ (List.mem_append_right _ (List.mem_singleton_self _)))
      hstep

theorem Progress.current_eq {reached : RoboDojoState topology}
    (hprogress : Progress config slot policy state buffer reached current) :
    current = reached.phase.options? := by
  cases hprogress <;> rfl

/-- Whatever timeouts strike, the cases returned and the cursors saved with
them are those of a run without timeouts. -/
theorem reset_recovery_transparent {saved : Option CaseCursors}
    {events calm : List (RoboDojoEvent topology)}
    {final calmFinal : RoboDojoState topology}
    (hrun : Run (recovery (roboDojoAdapter config slot) policy)
      (startedSimulator config saved) events final)
    (hallowed : ∀ event ∈ events,
      TimeoutAllowed policy event.before event.label)
    (hcalm : Run (recovery (roboDojoAdapter config slot) policy)
      (startedSimulator config saved) calm calmFinal)
    (hnever : ∀ event ∈ calm, event.label ≠ .expire)
    (hsame : requests events = requests calm)
    (hanswered : calmFinal.phase.options? = none) :
    boundaries events <+: boundaries calm ∧
      (final.phase.options? = none → boundaries events = boundaries calm) := by
  have hcalmAllowed : ∀ event ∈ calm,
      TimeoutAllowed policy event.before event.label := by
    intro event hevent
    have hlabel := hnever event hevent
    unfold TimeoutAllowed
    cases hcase : event.label with
    | expire => exact absurd hcase hlabel
    | _ => trivial
  obtain ⟨completed, current, hrecovered⟩ := recovered_run hrun hallowed
  obtain ⟨calmCompleted, calmCurrent, hideal⟩ :=
    recovered_run hcalm hcalmAllowed
  obtain ⟨_, hprogress, _⟩ := hrecovered.progress
  obtain ⟨_, hcalmProgress, _⟩ := hideal.progress
  have hcalmRequests : requests calm = calmCompleted := by
    rw [hideal.requested, hcalmProgress.current_eq, hanswered]
    simp
  have hall : completed ++ current.toList = calmCompleted := by
    rw [← hrecovered.requested, hsame, hcalmRequests]
  rw [hrecovered.returned, hideal.returned, ← hall]
  constructor
  · exact idealBoundaries_prefix_append _ _ _
  · intro hidle
    rw [hprogress.current_eq, hidle]
    simp

def pairedPolicy : RecoveryPolicy where
  timeout := 240
  maxProcessRestarts := 2
  timeout_pos := by norm_num

/-- The first reset is executed but times out, then its snapshot times out. -/
def troubledLabels : List (RecoveryLabel (Option ResetOptions)) :=
  [.reset (some ⟨.train, false⟩), .serve, .expire, .launch, .receive, .serve,
    .receive, .serve, .expire, .launch, .receive, .serve, .receive, .serve,
    .receive, .step none, .serve, .receive, .reset (some ⟨.eval, true⟩),
    .expire, .launch, .receive, .serve, .receive, .serve, .receive]

def calmLabels : List (RecoveryLabel (Option ResetOptions)) :=
  [.reset (some ⟨.train, false⟩), .serve, .receive, .serve, .receive,
    .reset (some ⟨.eval, true⟩), .serve, .receive, .serve, .receive]

abbrev pairedRecovery : Machine (RoboDojoState pairedTopology)
      (RecoveryLabel (Option ResetOptions)) (RecoveryOutput RoboDojoValue) :=
  recovery (roboDojoAdapter pairedConfig ⟨1, 0⟩) pairedPolicy

theorem troubledLabels_exec :
    (pairedRecovery.exec (startedSimulator pairedConfig none)
      troubledLabels).isSome = true := by
  decide +kernel

theorem calmLabels_exec :
    (pairedRecovery.exec (startedSimulator pairedConfig none)
      calmLabels).isSome = true := by
  decide +kernel

abbrev pairedExec (labels : List (RecoveryLabel (Option ResetOptions))) :=
  pairedRecovery.exec (startedSimulator pairedConfig none) labels

theorem reset_recovery_transparent_paired :
    boundaries ((pairedExec troubledLabels).get troubledLabels_exec).1 =
      boundaries ((pairedExec calmLabels).get calmLabels_exec).1 :=
  (reset_recovery_transparent
    (Machine.run_of_exec (Option.some_get troubledLabels_exec).symm)
    (by decide +kernel)
    (Machine.run_of_exec (Option.some_get calmLabels_exec).symm)
    (by decide +kernel) (by decide +kernel) (by decide +kernel)).2
    (by decide +kernel)

end VerlVla
