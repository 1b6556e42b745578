import VerlVla.DatasetRecorder
import VerlVla.RecorderRefinement

/-!
# Failures of an asynchronous recorder

The worker goes on after a failure.  What the caller had queued before it heard
of the failure is still applied, so a save that was queued behind it completes
an episode.  Apart from that the wrapper refines the recorder, and every call
ends.
-/

namespace VerlVla

open List hiding cons get nil

open Transition

namespace AsyncRecorder

variable {R F E P : Type} {recorder : BaseRecorder R F E P} {start : R}
  {queueSize : ℕ} {entries output more : List (RecorderEvent F E P)}
  {state next : AsyncRecorder R F E P} {call : RecorderCall F}
  {label : AsyncLabel F}

/-! ## Every step keeps the wrapper sound -/

theorem sound_start (recorder : BaseRecorder R F E P) (start : R) :
    Sound recorder start [] (AsyncRecorder.start start) := by
  refine ⟨?_, ?_, ?_, trivial, ?_⟩
  · constructor
    · intro _
      rfl
    · exact nofun
    · exact nofun
    · exact nofun
    · exact nofun
  · constructor
    · exact ⟨[], by simp, rfl⟩
    · exact nofun
    · exact nofun
  · constructor
    · rfl
    · intro _
      exact not_failed_nil
    · exact nofun
    · exact nil_prefix
    · intro _
      rfl
    · exact nofun
  · exact ⟨lawful_nil, lawful_nil, lawful_nil⟩

theorem Sound.step (hsound : Sound recorder start entries state)
    (hstep : state.step recorder queueSize label = some (output, next)) :
    Sound recorder start (entries ++ output) next := by
  have hmove := move_of_step recorder queueSize hstep
  generalize hresult : (output, next) = result at hmove
  obtain ⟨rfl, rfl⟩ := Prod.mk.inj hresult.symm
  cases hmove with
  | call hcaller call => exact hsound.makeCall hcaller call
  | put hcaller _ => exact hsound.putCommand hcaller
  | receive hcaller hresponse =>
    exact hsound.receiveResponse hcaller hresponse
  | close hcaller _ => exact hsound.putSentinel hcaller
  | join hcaller _ => exact hsound.join hcaller
  | get _ hrunning hcommands => exact hsound.takeCommand hrunning hcommands
  | run hrunning => exact hsound.runCommand hrunning

/-! ## Every call ends -/

end AsyncRecorder

/-- The steps that a call needs at most, apart from those of the commands that
are queued. -/
def CallerPhase.work {F E P : Type} : CallerPhase F E P → ℕ
  | .idle => 0
  | .joining _ => 1
  | .closing _ => 4
  | .waiting _ => 5
  | .putting _ => 8

namespace AsyncRecorder

variable {R F E P : Type} {recorder : BaseRecorder R F E P} {start : R}
  {queueSize : ℕ} {entries output more : List (RecorderEvent F E P)}
  {state next final : AsyncRecorder R F E P} {call : RecorderCall F}
  {label : AsyncLabel F}

def work (state : AsyncRecorder R F E P) : ℕ :=
  2 * state.commands.length + state.running.toList.length + state.caller.work

theorem work_finish_lt (call : RecorderCall F)
    (ending : Except (CallError E) P) :
    (state.finish call ending).2.work + 1 ≤
      2 * state.commands.length + state.running.toList.length + 5 := by
  unfold AsyncRecorder.finish
  split_ifs
  · simp only [work, CallerPhase.work]
    omega
  · simp only [work, CallerPhase.work]
    omega

theorem work_putCommand (hcaller : state.caller = .putting call) :
    (state.putCommand call).2.work + 1 ≤ state.work := by
  unfold AsyncRecorder.putCommand
  split_ifs
  · simp only [work, hcaller, CallerPhase.work, length_append,
      length_singleton]
    omega
  · simp only [work, hcaller, CallerPhase.work, length_append,
      length_singleton]
    omega

theorem work_receiveResponse (hcaller : state.caller = .waiting call)
    (response : Except E P) :
    (state.receiveResponse call response).2.work + 1 ≤ state.work := by
  rw [work, work, hcaller]
  unfold AsyncRecorder.receiveResponse
  split
  · exact work_finish_lt _ _
  · exact work_finish_lt _ _
  · exact work_finish_lt _ _

theorem work_takeCommand {commands : List (Option (RecorderCall F))}
    (hrunning : state.running = none)
    (hcommands : state.commands = command :: commands) :
    (state.takeCommand command commands).work + 1 ≤ state.work := by
  cases command with
  | none =>
    simp only [work, AsyncRecorder.takeCommand, hrunning, hcommands,
      length_cons]
    omega
  | some call =>
    simp only [work, AsyncRecorder.takeCommand, hrunning, hcommands,
      length_cons, Option.toList_some, Option.toList_none,
      length_nil]
    omega

theorem work_step (hlabel : label.isCall = false)
    (hstep : state.step recorder queueSize label = some (output, next)) :
    next.work + 1 ≤ state.work := by
  have hmove := move_of_step recorder queueSize hstep
  generalize hresult : (output, next) = result at hmove
  obtain rfl := (Prod.mk.inj hresult.symm).2
  cases hmove with
  | call hcaller call => cases hlabel
  | put hcaller _ => exact work_putCommand hcaller
  | @receive call response hcaller _ =>
    exact work_receiveResponse hcaller response
  | close hcaller _ =>
    simp only [work, hcaller, AsyncRecorder.putSentinel, CallerPhase.work,
      length_append, length_singleton]
    omega
  | join hcaller _ =>
    simp only [work, hcaller, CallerPhase.work]
    omega
  | get _ hrunning hcommands => exact work_takeCommand hrunning hcommands
  | run hrunning =>
    simp only [work, AsyncRecorder.runCommand, hrunning,
      Option.toList_some, Option.toList_none, length_singleton,
      length_nil]
    omega

theorem work_run
    (hrun : Run (asyncRecorder recorder queueSize) state events final)
    (hlabels : ∀ event ∈ events, event.label.isCall = false) :
    final.work + events.length ≤ state.work := by
  induction hrun with
  | nil => exact Nat.le_refl _
  | @snoc current next prior label output _ hstep ih =>
    have hprior := ih fun event hevent =>
      hlabels event (mem_append_left _ hevent)
    have hlast := work_step (hlabels ⟨current, label, output, next⟩
      (mem_append_right _ mem_cons_self)) hstep
    rw [length_append, length_singleton]
    omega

theorem worker_enabled (halive : state.alive = true)
    (hwork : state.running ≠ none ∨ state.commands ≠ []) :
    ∃ label, AsyncLabel.isCall (F := F) label = false ∧
      (state.step recorder queueSize label).isSome := by
  cases hrunning : state.running with
  | some call => exact ⟨.run, rfl, by simp [AsyncRecorder.step, hrunning]⟩
  | none =>
    cases hcommands : state.commands with
    | nil => simp [hrunning, hcommands] at hwork
    | cons command commands =>
      exact ⟨.get, rfl, by
        simp [AsyncRecorder.step, halive, hrunning, hcommands]⟩

theorem Sound.continues (hsound : Sound recorder start entries state)
    (hsize : 1 ≤ queueSize) (hcaller : state.caller ≠ .idle) :
    ∃ label, AsyncLabel.isCall (F := F) label = false ∧
      (state.step recorder queueSize label).isSome := by
  have hqueue : state.alive = true → ¬state.commands.length < queueSize →
      ∃ label, AsyncLabel.isCall (F := F) label = false ∧
        (state.step recorder queueSize label).isSome := by
    intro halive hfull
    apply worker_enabled halive
    right
    intro hempty
    rw [hempty, length_nil] at hfull
    omega
  cases hphase : state.caller with
  | idle => exact absurd hphase hcaller
  | putting call =>
    have hmaking : state.caller.isMaking = true := by
      rw [hphase]
      rfl
    by_cases hroom : state.commands.length < queueSize
    · exact ⟨.put, rfl, by simp [AsyncRecorder.step, hphase, hroom]⟩
    · exact hqueue
        (hsound.draining.alive (hsound.draining.making hmaking)) hroom
  | waiting call =>
    have hmaking : state.caller.isMaking = true := by
      rw [hphase]
      rfl
    cases hresponse : state.response with
    | some response =>
      exact ⟨.receive, rfl, by
        simp [AsyncRecorder.step, hphase, hresponse]⟩
    | none =>
      apply worker_enabled
        (hsound.draining.alive (hsound.draining.making hmaking))
      by_contra hidle
      simp only [not_or, not_not] at hidle
      obtain ⟨queue, _, hpending⟩ := hsound.awaiting.queue
      rw [pendingCalls, hidle.1, hidle.2, hresponse, hphase] at hpending
      cases queue <;> cases hpending
  | closing ending =>
    by_cases hroom : state.commands.length < queueSize
    · exact ⟨.close, rfl, by simp [AsyncRecorder.step, hphase, hroom]⟩
    · exact hqueue
        (hsound.draining.alive (hsound.draining.closing ending hphase)) hroom
  | joining ending =>
    cases halive : state.alive with
    | false =>
      exact ⟨.join, rfl, by simp [AsyncRecorder.step, hphase, halive]⟩
    | true =>
      have hsentinel := (hsound.draining.joining ending hphase).2 halive
      exact worker_enabled halive (.inr (ne_nil_of_mem hsentinel))

/-! ## Commands behind a failure -/

/-- The calls that are applied after the running one. -/
def waitingCalls (state : AsyncRecorder R F E P) : List (RecorderCall F) :=
  state.commands.reduceOption ++ state.caller.puts

/-- A call that raises has nothing behind it that hands frames over. -/
def failsAlone (recorder : BaseRecorder R F E P)
    (state : AsyncRecorder R F E P) : AsyncLabel F → Bool
  | .run =>
    match state.running with
    | none => true
    | some call =>
      match (recorder.apply call state.recorder).1 with
      | .ok _ => true
      | .error _ => state.waitingCalls.all fun other => !other.completes
  | _ => true

/-- After a failure nothing on its way hands frames over. -/
structure Stopped (entries : List (RecorderEvent F E P))
    (state : AsyncRecorder R F E P) : Prop where
  pending : state.error ≠ none →
    ∀ call ∈ state.pendingCalls ++ state.caller.puts, call.completes = false
  law : Lawful stopLaw entries

section

variable (hstopped : Stopped entries state)

include hstopped

theorem Stopped.quiet (herror : next.error = state.error)
    (hpending : state.error ≠ none → next.pendingCalls ++ next.caller.puts ⊆
        state.pendingCalls ++ state.caller.puts)
    (happlied : appliedCalls more = []) : Stopped (entries ++ more) next := by
  refine ⟨?_, ?_⟩
  · rw [herror]
    intro hfailed call hcall
    exact hstopped.pending hfailed call (hpending hfailed hcall)
  · apply hstopped.law.append
    intro left entry hentry
    cases entry with
    | applied call outcome =>
      have hcall : call ∈ appliedCalls more :=
        mem_filterMap.mpr ⟨_, hentry, rfl⟩
      simp [happlied] at hcall
    | _ => trivial

theorem Stopped.makeCall
    (hcaller : state.caller = .idle) (call : RecorderCall F) :
    Stopped (entries ++ (state.makeCall call).1) (state.makeCall call).2 := by
  unfold AsyncRecorder.makeCall
  by_cases hrepeat : (call.finalizes && state.closed) = true
  · rw [if_pos hrepeat]
    exact hstopped.quiet rfl (fun _ => List.Subset.refl _) rfl
  rw [if_neg hrepeat]
  cases herror : state.error with
  | some cause =>
    simp only [AsyncRecorder.finish]
    by_cases hfinalize : call.finalizes = true
    · simp only [if_pos hfinalize]
      refine hstopped.quiet rfl (fun _ => ?_) rfl
      rw [hcaller]
      exact List.Subset.refl _
    · simp only [if_neg hfinalize]
      refine hstopped.quiet rfl (fun _ => ?_) rfl
      rw [hcaller]
      exact List.Subset.refl _
  | none =>
    by_cases hclosed : state.closed = true
    · simp only [if_pos hclosed]
      exact hstopped.quiet rfl (fun _ => List.Subset.refl _) rfl
    · simp only [if_neg hclosed]
      exact hstopped.quiet herror.symm
        (fun hfailed => absurd herror hfailed) rfl

theorem Stopped.putCommand (hcaller : state.caller = .putting call) :
    Stopped (entries ++ (state.putCommand call).1)
      (state.putCommand call).2 := by
  have hsame : state.pendingCalls ++ [call] ++ [] ⊆
      state.pendingCalls ++ state.caller.puts := by
    rw [hcaller, append_nil]
    exact List.Subset.refl _
  unfold AsyncRecorder.putCommand
  by_cases hsynchronous : call.synchronous = true
  · simp only [if_pos hsynchronous]
    refine hstopped.quiet rfl (fun _ => ?_) rfl
    rw [pendingCalls_put]
    exact hsame
  · simp only [if_neg hsynchronous]
    refine hstopped.quiet rfl (fun _ => ?_) rfl
    rw [pendingCalls_put]
    exact hsame

theorem Stopped.finish
    (call : RecorderCall F) (ending : Except (CallError E) P) :
    let finished := { state with response := none }.finish call ending
    Stopped (entries ++ finished.1) finished.2 := by
  have hsame : state.pendingCalls ++ [] ⊆
      state.pendingCalls ++ state.caller.puts := by
    rw [append_nil]
    exact subset_append_left _ _
  simp only [AsyncRecorder.finish]
  by_cases hfinalize : call.finalizes = true
  · simp only [if_pos hfinalize]
    exact hstopped.quiet rfl (fun _ => hsame) rfl
  · simp only [if_neg hfinalize]
    exact hstopped.quiet rfl (fun _ => hsame) (appliedCalls_ended _)

theorem Stopped.receiveResponse (response : Except E P) :
    Stopped (entries ++ (state.receiveResponse call response).1)
      (state.receiveResponse call response).2 := by
  unfold AsyncRecorder.receiveResponse
  cases response with
  | error error => exact hstopped.finish call (.error (.own error))
  | ok answer =>
    cases herror : state.error with
    | some cause =>
      have hfinish := hstopped.finish call (.error (.workerFailed cause))
      rw [herror] at hfinish
      exact hfinish
    | none =>
      have hfinish := hstopped.finish call (.ok answer)
      rw [herror] at hfinish
      exact hfinish

theorem Stopped.takeCommand {commands : List (Option (RecorderCall F))}
    (hrunning : state.running = none)
    (hcommands : state.commands = command :: commands) :
    Stopped (entries ++ []) (state.takeCommand command commands) := by
  obtain ⟨_, herror, _, _, hcaller⟩ := state.takeCommand_same command commands
  refine hstopped.quiet herror (fun _ => ?_) rfl
  rw [pendingCalls_take command commands hrunning hcommands, hcaller]
  exact List.Subset.refl _

theorem Stopped.runCommand (htracks : Tracks recorder start entries state)
    (hrunning : state.running = some call)
    (halone : failsAlone recorder state .run = true) :
    Stopped (entries ++ (state.runCommand recorder call).1)
      (state.runCommand recorder call).2 := by
  constructor
  · intro hfailed other hother
    have hwaiting : other ∈ state.waitingCalls := hother
    cases houtcome : (recorder.apply call state.recorder).1 with
    | error error =>
      simp only [failsAlone, hrunning, houtcome] at halone
      have hother := all_eq_true.mp halone other hwaiting
      rw [Bool.not_eq_true'] at hother
      exact hother
    | ok answer =>
      simp only [AsyncRecorder.runCommand, houtcome] at hfailed
      apply hstopped.pending hfailed
      rw [pendingCalls_run hrunning]
      exact mem_cons_of_mem _ hwaiting
  · apply hstopped.law.snoc
    intro hfailed
    have herror : state.error ≠ none := fun hnone =>
      htracks.unfailed hnone hfailed
    apply hstopped.pending herror
    rw [pendingCalls_run hrunning]
    exact mem_cons_self

theorem Stopped.step (htracks : Tracks recorder start entries state)
    (halone : failsAlone recorder state label = true)
    (hstep : state.step recorder queueSize label = some (output, next)) :
    Stopped (entries ++ output) next := by
  have hmove := move_of_step recorder queueSize hstep
  generalize hresult : (output, next) = result at hmove
  obtain ⟨rfl, rfl⟩ := Prod.mk.inj hresult.symm
  cases hmove with
  | call hcaller call => exact hstopped.makeCall hcaller call
  | put hcaller _ => exact hstopped.putCommand hcaller
  | @receive call response _ _ => exact hstopped.receiveResponse response
  | @close ending hcaller _ =>
    refine hstopped.quiet rfl (fun _ => ?_) rfl
    rw [pendingCalls_putSentinel, hcaller]
    exact List.Subset.refl _
  | join hcaller _ =>
    refine hstopped.quiet rfl (fun _ => ?_) (appliedCalls_ended _)
    rw [hcaller]
    exact List.Subset.refl _
  | get _ hrunning hcommands => exact hstopped.takeCommand hrunning hcommands
  | run hrunning => exact hstopped.runCommand htracks hrunning halone

end

/-! ## Runs -/

structure RefinesUntilFailure (recorder : BaseRecorder R F E P) (start : R)
    (queueSize : ℕ) (entries : List (RecorderEvent F E P))
    (state : AsyncRecorder R F E P) : Prop where
  refines : Refines recorder start entries
  applies : state.recorder = recorder.after start (appliedCalls entries)
  stops : Lawful stopLaw entries
  continues : state.caller ≠ .idle →
    ∃ label, AsyncLabel.isCall (F := F) label = false ∧
      (state.step recorder queueSize label).isSome
  ends : ∀ events final, Run (asyncRecorder recorder queueSize) state events
      final → (∀ event ∈ events, event.label.isCall = false) →
    events.length ≤ state.work

theorem sound_run
    (hrun : Run (asyncRecorder recorder queueSize) (.start start) events final) :
    Sound recorder start (log events) final := by
  apply hrun.log_invariant (fun _ _ => True) (Sound recorder start)
  · intro entries state label output next hsound _ hstep
    exact hsound.step hstep
  · intro _ _
    trivial
  · exact sound_start recorder start

/-- Where no call fails with a save or a pop behind it, the wrapper refines the
recorder and no call blocks. -/
theorem async_recorder_refines (hsize : 1 ≤ queueSize)
    {events : List (Event (AsyncRecorder R F E P) (AsyncLabel F)
      (List (RecorderEvent F E P)))}
    {final : AsyncRecorder R F E P}
    (hrun : Run (asyncRecorder recorder queueSize) (.start start) events final)
    (halone : ∀ event ∈ events,
      failsAlone recorder event.before event.label = true) :
    RefinesUntilFailure recorder start queueSize (log events) final := by
  have hsound := sound_run hrun
  have hstopped : Stopped (log events) final := by
    have hboth := hrun.log_invariant
      (fun state label => failsAlone recorder state label = true)
      (fun entries state =>
        Sound recorder start entries state ∧ Stopped entries state)
      (fun entries state label output next hstate hguard hstep =>
        ⟨hstate.1.step hstep, hstate.2.step hstate.1.tracks hguard hstep⟩)
      halone ⟨sound_start recorder start, by simp [AsyncRecorder.start],
        lawful_nil⟩
    exact hboth.2
  constructor
  · constructor
    · have happlied : appliedCalls (log events) <+:
          accepted (log events) final := prefix_append _ _
      exact happlied.trans hsound.tracks.order
    · exact hsound.laws.outcomes
    · exact hsound.laws.returns
    · exact hsound.laws.raises
  · exact hsound.tracks.recorder
  · exact hstopped.law
  · exact hsound.continues hsize
  · intro more last hmore hlabels
    have hwork := work_run hmore hlabels
    omega

end AsyncRecorder

/-! ## A dataset recorder in the background -/

/-- Frames are numbers; one of them cannot be made. -/
def makeNumber : Option ℕ → Except Unit ℕ
  | none => .error ()
  | some number => .ok number

abbrev numberRecorder : BaseRecorder (LerobotDatasetRecorder ℕ) (Option ℕ)
    (RecorderError Unit) (RecorderAnswer ℕ) :=
  lerobotRecorder 1 makeNumber

def failingFrame : List (AsyncLabel (Option ℕ)) :=
  [.call (.recordOnce 0 (some 1)), .put, .get, .run,
    .call (.recordOnce 0 none), .put, .get, .run, .call (.saveEpisode 0),
    .call .finalize, .close, .get, .join]

theorem async_recorder_refines_failing_frame : ∃ events final,
      Run (asyncRecorder numberRecorder 1) (.start .create) events final ∧
      events.map Event.label = failingFrame ∧
      AsyncRecorder.RefinesUntilFailure numberRecorder .create 1 (log events)
        final := by
  have hchecked : (((asyncRecorder numberRecorder 1).exec (.start .create)
      failingFrame).map fun result => result.1.all fun event =>
        AsyncRecorder.failsAlone numberRecorder event.before event.label) =
      some true := by
    decide +kernel
  obtain ⟨⟨events, final⟩, hexec, hall⟩ := Option.map_eq_some_iff.mp hchecked
  have hrun := Machine.run_of_exec hexec
  exact ⟨events, final, hrun, Machine.labels_of_exec hexec,
    AsyncRecorder.async_recorder_refines (Nat.le_refl 1) hrun
      (all_eq_true.mp hall)⟩

/-- The save is queued before the worker reaches the frame that fails. -/
def saveBehindFailure : List (AsyncLabel (Option ℕ)) :=
  [.call (.recordOnce 0 (some 1)), .put, .call (.recordOnce 0 none), .put,
    .call (.recordOnce 0 (some 3)), .put, .call (.saveEpisode 0), .put,
    .get, .run, .get, .run, .get, .run, .get, .run]

/-- The episode is completed without its second frame. -/
theorem missing_frame_is_saved : ∃ events final,
      Run (asyncRecorder numberRecorder 256) (.start .create) events final ∧
      events.map Event.label = saveBehindFailure ∧
      ¬Lawful stopLaw (log events) ∧
      final.recorder.dataset = some ⟨[[1, 3]], []⟩ := by
  have hchecked : (((asyncRecorder numberRecorder 256).exec (.start .create)
      saveBehindFailure).map fun result =>
        decide (log result.1 = log (result.1.take 15) ++
            [.applied (.saveEpisode 0) (.ok .none)] ∧
          .applied (.recordOnce 0 none) (.error (.makeFrame ())) ∈
            log (result.1.take 15) ∧
          result.2.recorder.dataset = some ⟨[[1, 3]], []⟩)) = some true := by
    decide +kernel
  obtain ⟨⟨events, final⟩, hexec, hall⟩ := Option.map_eq_some_iff.mp hchecked
  obtain ⟨hlog, hfailed, hdataset⟩ := of_decide_eq_true hall
  refine ⟨events, final, Machine.run_of_exec hexec,
    Machine.labels_of_exec hexec, ?_, hdataset⟩
  intro hlawful
  have hsave := hlawful _ _ [] hlog ⟨_, _, hfailed⟩
  cases hsave

end VerlVla
