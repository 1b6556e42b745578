import Mathlib.Data.List.ReduceOption
import VerlVla.AsyncRecorder

/-!
# The asynchronous recorder refines the recorder it wraps

The commands the worker has not applied are the queued ones, after the one it
is running.  Together with the applied calls and the call the caller is putting
they are the calls of the caller in order, until one of them is refused.
-/

namespace VerlVla

open List hiding all cons nil

open Transition

namespace AsyncRecorder

variable {R F E P : Type} {recorder : BaseRecorder R F E P} {start : R}

/-! ## The calls on their way -/

def pendingCalls (state : AsyncRecorder R F E P) : List (RecorderCall F) :=
  state.running.toList ++ state.commands.reduceOption

end AsyncRecorder

namespace CallerPhase

variable {F E P : Type}

def puts : CallerPhase F E P → List (RecorderCall F)
  | .putting call => [call]
  | _ => []

def isMaking : CallerPhase F E P → Bool
  | .putting _ => true
  | .waiting _ => true
  | _ => false

def awaits : CallerPhase F E P → List (RecorderCall F)
  | .waiting call => [call]
  | _ => []

end CallerPhase

namespace AsyncRecorder

variable {R F E P : Type} {recorder : BaseRecorder R F E P} {start : R}

/-- The calls that were not refused, in order. -/
def accepted (entries : List (RecorderEvent F E P))
    (state : AsyncRecorder R F E P) : List (RecorderCall F) :=
  appliedCalls entries ++ (state.pendingCalls ++ state.caller.puts)

/-- The queue is read by the worker until the sentinel arrives. -/
structure Draining (state : AsyncRecorder R F E P) : Prop where
  alive : state.closed = false → state.alive = true
  sentinel : state.closed = false → none ∉ state.commands
  joining : ∀ ending, state.caller = .joining ending → state.closed = true ∧
    (state.alive = true → none ∈ state.commands)
  making : state.caller.isMaking = true → state.closed = false
  closing : ∀ ending, state.caller = .closing ending → state.closed = false

structure Awaiting (state : AsyncRecorder R F E P) : Prop where
  queue : ∃ queue, (∀ call ∈ queue, call.synchronous = false) ∧
    state.pendingCalls = queue ++
      (if state.response.isSome then [] else state.caller.awaits)
  response : state.response.isSome → state.caller.awaits ≠ [] ∧
    state.pendingCalls = []
  synchronous : ∀ call ∈ state.caller.awaits, call.synchronous = true

/-- The log and the state agree on what the recorder has been through. -/
structure Tracks (recorder : BaseRecorder R F E P) (start : R)
    (entries : List (RecorderEvent F E P)) (state : AsyncRecorder R F E P) :
    Prop where
  recorder : state.recorder = recorder.after start (appliedCalls entries)
  unfailed : state.error = none → ¬Failed entries
  cause : ∀ error, state.error = some error →
    ∃ call, .applied call (.error error) ∈ entries
  order : accepted entries state <+: calledCalls entries
  all : (state.error = none ∧ state.closed = false ∨
    state.caller.isMaking = true) →
    accepted entries state = calledCalls entries
  ended : state.closed = true → state.caller = .idle → Ended entries

/-- How a `finalize` that is being closed will end. -/
structure Closes (recorder : BaseRecorder R F E P) (start : R)
    (entries : List (RecorderEvent F E P)) (state : AsyncRecorder R F E P)
    (ending : Except (CallError E) P) : Prop where
  returns : returnLaw recorder start entries (.ended .finalize ending)
  raises : raiseLaw entries (.ended .finalize ending)
  drained : ∀ answer, ending = .ok answer → state.pendingCalls = []

def Opened (entries : List (RecorderEvent F E P)) (call : RecorderCall F) :
    Prop :=
  ∃ left, CallOpen entries left call ∧ ¬Failed left

structure Responds (recorder : BaseRecorder R F E P) (start : R)
    (entries : List (RecorderEvent F E P)) (call : RecorderCall F)
    (outcome : Except E P) : Prop where
  agrees : ∀ left, CallOpen entries left call →
    (recorder.apply call (recorder.after start (calledCalls left))).1 = outcome
  cause : ∀ error, outcome = .error error →
    .applied call (.error error) ∈ entries

def Answering (recorder : BaseRecorder R F E P) (start : R)
    (entries : List (RecorderEvent F E P)) (state : AsyncRecorder R F E P) :
    Prop :=
  match state.caller with
  | .idle => True
  | .putting call => Opened entries call
  | .waiting call => Opened entries call ∧ ∀ outcome,
      state.response = some outcome →
        Responds recorder start entries call outcome
  | .closing ending => Closes recorder start entries state ending
  | .joining ending => Closes recorder start entries state ending

structure Laws (recorder : BaseRecorder R F E P) (start : R)
    (entries : List (RecorderEvent F E P)) : Prop where
  outcomes : Lawful (outcomeLaw recorder start) entries
  returns : Lawful (returnLaw recorder start) entries
  raises : Lawful raiseLaw entries

structure Sound (recorder : BaseRecorder R F E P) (start : R)
    (entries : List (RecorderEvent F E P)) (state : AsyncRecorder R F E P) :
    Prop where
  draining : Draining state
  awaiting : Awaiting state
  tracks : Tracks recorder start entries state
  answering : Answering recorder start entries state
  laws : Laws recorder start entries

variable {entries more : List (RecorderEvent F E P)}
  {state : AsyncRecorder R F E P} {call : RecorderCall F}

theorem Laws.called (hlaws : Laws recorder start entries)
    (call : RecorderCall F) :
    Laws recorder start (entries ++ [.called call]) where
  outcomes := hlaws.outcomes.snoc trivial
  returns := hlaws.returns.snoc trivial
  raises := hlaws.raises.snoc trivial

theorem Laws.returned (hlaws : Laws recorder start entries)
    (hreturn : returnLaw recorder start entries (.returned call answer)) :
    Laws recorder start (entries ++ [.returned call answer]) where
  outcomes := hlaws.outcomes.snoc trivial
  returns := hlaws.returns.snoc hreturn
  raises := hlaws.raises.snoc trivial

theorem Laws.raised (hlaws : Laws recorder start entries)
    {error : CallError E} (hraise : raiseLaw entries (.raised call error)) :
    Laws recorder start (entries ++ [.raised call error]) where
  outcomes := hlaws.outcomes.snoc trivial
  returns := hlaws.returns.snoc trivial
  raises := hlaws.raises.snoc hraise

variable {ending : Except (CallError E) P} {next : AsyncRecorder R F E P}

theorem Laws.ended (hlaws : Laws recorder start entries)
    (hreturn : returnLaw recorder start entries (.ended call ending))
    (hraise : raiseLaw entries (.ended call ending)) :
    Laws recorder start (entries ++ [.ended call ending]) := by
  cases ending with
  | ok answer => exact hlaws.returned hreturn
  | error error => exact hlaws.raised hraise

theorem Laws.applied (hlaws : Laws recorder start entries)
    (houtcome : outcomeLaw recorder start entries (.applied call outcome)) :
    Laws recorder start (entries ++ [.applied call outcome]) where
  outcomes := hlaws.outcomes.snoc houtcome
  returns := hlaws.returns.snoc trivial
  raises := hlaws.raises.snoc trivial

theorem raiseLaw_append (hraise : raiseLaw entries entry)
    (hmore : ∀ entry ∈ more, entry.isApplied = true) :
    raiseLaw (entries ++ more) entry := by
  cases entry with
  | raised call error =>
    obtain ⟨⟨left, hleft⟩, hcause⟩ := hraise
    refine ⟨⟨left, hleft.append hmore⟩, ?_⟩
    cases error with
    | own error | workerFailed cause =>
      obtain ⟨other, hother⟩ := hcause
      exact ⟨other, mem_append_left _ hother⟩
    | finalized => exact Ended.append hcause
  | _ => trivial

/-! ## Steps of the caller -/

section

variable (htracks : Tracks recorder start entries state)
  (hrecorder : next.recorder = state.recorder)
  (herror : next.error = state.error) (happlied : appliedCalls more = [])

include htracks hrecorder herror happlied

theorem Tracks.quiet (hpending : next.pendingCalls ++ next.caller.puts =
      state.pendingCalls ++ state.caller.puts ++ calledCalls more)
    (hopen : calledCalls more ≠ [] ∨ next.error = none ∧ next.closed = false ∨
      next.caller.isMaking = true →
      state.error = none ∧ state.closed = false ∨ state.caller.isMaking = true)
    (hended : next.closed = true → next.caller = .idle →
      Ended (entries ++ more)) :
    Tracks recorder start (entries ++ more) next := by
  have haccepted : accepted (entries ++ more) next =
      accepted entries state ++ calledCalls more := by
    rw [accepted, accepted, hpending, appliedCalls_append, happlied]
    simp
  constructor
  · rw [appliedCalls_append, happlied, append_nil, hrecorder]
    exact htracks.recorder
  · intro hnone
    rw [failed_append_iff happlied]
    exact htracks.unfailed (herror ▸ hnone)
  · intro error hsome
    obtain ⟨other, hother⟩ := htracks.cause error (herror ▸ hsome)
    exact ⟨other, mem_append_left _ hother⟩
  · rw [haccepted, calledCalls_append]
    by_cases hmore : calledCalls more = []
    · rw [hmore, append_nil, append_nil]
      exact htracks.order
    · rw [htracks.all (hopen (.inl hmore))]
  · intro hnext
    rw [haccepted, calledCalls_append, htracks.all (hopen (.inr hnext))]
  · exact hended

theorem Tracks.refused (hpending : next.pendingCalls ++ next.caller.puts =
      state.pendingCalls ++ state.caller.puts)
    (hclosed : next.error = none → next.closed = true)
    (hmaking : next.caller.isMaking = false)
    (hended : next.closed = true → next.caller = .idle →
      Ended (entries ++ more)) :
    Tracks recorder start (entries ++ more) next := by
  constructor
  · rw [appliedCalls_append, happlied, append_nil, hrecorder]
    exact htracks.recorder
  · intro hnone
    rw [failed_append_iff happlied]
    exact htracks.unfailed (herror ▸ hnone)
  · intro error hsome
    obtain ⟨other, hother⟩ := htracks.cause error (herror ▸ hsome)
    exact ⟨other, mem_append_left _ hother⟩
  · rw [accepted, hpending, appliedCalls_append, happlied, append_nil,
      calledCalls_append]
    exact htracks.order.trans (prefix_append _ _)
  · intro hopen
    rcases hopen with ⟨hnone, hnext⟩ | hnext
    · rw [hclosed hnone] at hnext
      cases hnext
    · simp [hmaking] at hnext
  · exact hended

end

theorem Draining.sameQueue
    (hdraining : Draining state) (halive : next.alive = state.alive)
    (hcommands : none ∈ next.commands → none ∈ state.commands)
    (hclosed : next.closed = state.closed)
    (hjoining : ∀ ending, next.caller ≠ .joining ending)
    (hopen : next.caller = .idle ∨ state.closed = false) : Draining next := by
  constructor
  · rw [halive, hclosed]
    exact hdraining.alive
  · intro hfalse hnone
    exact hdraining.sentinel (hclosed ▸ hfalse) (hcommands hnone)
  · intro ending hcaller
    exact absurd hcaller (hjoining ending)
  · intro hmaking
    rcases hopen with hidle | hfalse
    · rw [hidle] at hmaking
      cases hmaking
    · rw [hclosed]
      exact hfalse
  · intro ending hcaller
    rcases hopen with hidle | hfalse
    · simp [hidle] at hcaller
    · rw [hclosed]
      exact hfalse

theorem Awaiting.quiet
    (hawaiting : Awaiting state) (hcaller : state.caller.awaits = [])
    (hnext : next.caller.awaits = []) (hresponse : next.response = none)
    (hpending : next.pendingCalls = state.pendingCalls) : Awaiting next := by
  obtain ⟨queue, hasync, hqueue⟩ := hawaiting.queue
  constructor
  · refine ⟨queue, hasync, ?_⟩
    rw [hpending, hqueue, hcaller, hnext, ite_self, ite_self]
  · rw [hresponse]
    exact nofun
  · rw [hnext]
    exact nofun

theorem Awaiting.response_none (hawaiting : Awaiting state)
    (hcaller : state.caller.awaits = []) : state.response = none := by
  cases hresponse : state.response with
  | none => rfl
  | some outcome =>
    have hsome := hawaiting.response (by rw [hresponse]; rfl)
    exact absurd hcaller hsome.1

theorem Sound.makeCall (hsound : Sound recorder start entries state)
    (hcaller : state.caller = .idle) (call : RecorderCall F) :
    Sound recorder start (entries ++ (state.makeCall call).1)
      (state.makeCall call).2 := by
  have hawaits : state.caller.awaits = [] := by
    rw [hcaller]
    rfl
  have hresponse := hsound.awaiting.response_none hawaits
  unfold AsyncRecorder.makeCall
  by_cases hrepeat : (call.finalizes && state.closed) = true
  · rw [if_pos hrepeat]
    obtain ⟨hfinalize, hclosed⟩ := (Bool.and_eq_true _ _).mp hrepeat
    obtain rfl := RecorderCall.eq_finalize hfinalize
    have hended := hsound.tracks.ended hclosed hcaller
    refine ⟨hsound.draining, hsound.awaiting, ?_, ?_, ?_⟩
    · refine hsound.tracks.refused rfl rfl rfl rfl ?_ ?_ ?_
      · intro _
        exact hclosed
      · rw [hcaller]
        rfl
      · intro _ _
        exact hended.append
    · rw [Answering, hcaller]
      trivial
    · rw [append_cons]
      apply (hsound.laws.called _).returned
      exact ⟨entries, callOpen_called, .inl ⟨rfl, rfl, hended⟩⟩
  rw [if_neg hrepeat]
  cases herror : state.error with
  | some cause =>
    have hcause : raiseLaw (entries ++ [.called call])
        (.raised call (.workerFailed cause)) := by
      obtain ⟨other, hother⟩ := hsound.tracks.cause cause herror
      exact ⟨⟨entries, callOpen_called⟩, other, mem_append_left _ hother⟩
    simp only [finish]
    by_cases hfinalize : call.finalizes = true
    · simp only [if_pos hfinalize]
      obtain rfl := RecorderCall.eq_finalize hfinalize
      have hclosed : state.closed = false := by
        cases hclosed : state.closed with
        | false => rfl
        | true =>
          rw [hclosed] at hrepeat
          exact absurd rfl hrepeat
      refine ⟨?_, ?_, ?_, ?_, hsound.laws.called _⟩
      · refine hsound.draining.sameQueue rfl id rfl ?_ ?_
        · exact nofun
        · exact .inr hclosed
      · exact hsound.awaiting.quiet hawaits rfl hresponse rfl
      · refine hsound.tracks.refused rfl rfl rfl ?_ ?_ ?_ ?_
        · rw [hcaller]
          rfl
        · intro hnone
          simp [herror] at hnone
        · rfl
        · exact nofun
      · refine ⟨trivial, hcause, ?_⟩
        exact nofun
    · simp only [if_neg hfinalize]
      refine ⟨?_, ?_, ?_, trivial, ?_⟩
      · refine hsound.draining.sameQueue rfl id rfl ?_ ?_
        · exact nofun
        · exact .inl rfl
      · exact hsound.awaiting.quiet hawaits rfl hresponse rfl
      · refine hsound.tracks.refused rfl rfl rfl ?_ ?_ ?_ ?_
        · rw [hcaller]
          rfl
        · intro hnone
          simp [herror] at hnone
        · rfl
        · intro hclosed _
          exact (hsound.tracks.ended hclosed hcaller).append
      · rw [append_cons]
        exact (hsound.laws.called _).raised hcause
  | none =>
    have hunfailed := hsound.tracks.unfailed herror
    by_cases hclosed : state.closed = true
    · simp only [if_pos hclosed]
      have hended := hsound.tracks.ended hclosed hcaller
      refine ⟨hsound.draining, hsound.awaiting, ?_, ?_, ?_⟩
      · refine hsound.tracks.refused rfl rfl rfl rfl ?_ ?_ ?_
        · intro _
          exact hclosed
        · rw [hcaller]
          rfl
        · intro _ _
          exact hended.append
      · rw [Answering, hcaller]
        trivial
      · rw [append_cons]
        exact (hsound.laws.called _).raised
          ⟨⟨entries, callOpen_called⟩, hended.append⟩
    · simp only [if_neg hclosed]
      rw [Bool.not_eq_true] at hclosed
      refine ⟨?_, ?_, ?_, ?_, hsound.laws.called _⟩
      · refine hsound.draining.sameQueue rfl id rfl ?_ ?_
        · exact nofun
        · exact .inr hclosed
      · exact hsound.awaiting.quiet hawaits rfl hresponse rfl
      · refine hsound.tracks.quiet rfl herror.symm rfl ?_ ?_ ?_
        · rw [hcaller]
          simp [CallerPhase.puts, calledCalls, RecorderEvent.called?,
            pendingCalls]
        · intro _
          exact .inl ⟨herror, hclosed⟩
        · exact nofun
      · exact ⟨entries, callOpen_called, hunfailed⟩

theorem pendingCalls_put (state : AsyncRecorder R F E P)
    (call : RecorderCall F) (caller : CallerPhase F E P) :
    pendingCalls { state with
      commands := state.commands ++ [some call]
      caller := caller } = state.pendingCalls ++ [call] := by
  simp only [pendingCalls, reduceOption_append,
    reduceOption_singleton, Option.toList_some, append_assoc]

section

variable (hsound : Sound recorder start entries state)

include hsound

theorem Sound.putCommand (hcaller : state.caller = .putting call) :
    Sound recorder start (entries ++ (state.putCommand call).1)
      (state.putCommand call).2 := by
  have hawaits : state.caller.awaits = [] := by
    rw [hcaller]
    rfl
  have hputs : state.caller.puts = [call] := by
    rw [hcaller]
    rfl
  have hmaking : state.caller.isMaking = true := by
    rw [hcaller]
    rfl
  have hclosed := hsound.draining.making hmaking
  have hresponse := hsound.awaiting.response_none hawaits
  have hopened : Opened entries call := by
    have hanswering := hsound.answering
    rw [Answering, hcaller] at hanswering
    exact hanswering
  have hsentinel : none ∈ state.commands ++ [some call] →
      none ∈ state.commands := by
    intro hnone
    rcases mem_append.mp hnone with hnone | hnone
    · exact hnone
    · rw [mem_singleton] at hnone
      cases hnone
  obtain ⟨queue, hasync, hqueue⟩ := hsound.awaiting.queue
  rw [hawaits, ite_self, append_nil] at hqueue
  unfold AsyncRecorder.putCommand
  by_cases hsynchronous : call.synchronous = true
  · simp only [if_pos hsynchronous]
    refine ⟨?_, ?_, ?_, ?_, ?_⟩
    · refine hsound.draining.sameQueue rfl hsentinel rfl ?_ (.inr hclosed)
      exact nofun
    · constructor
      · refine ⟨queue, hasync, ?_⟩
        rw [pendingCalls_put, hqueue, hresponse]
        rfl
      · rw [hresponse]
        exact nofun
      · intro other hother
        rw [mem_singleton.mp hother]
        exact hsynchronous
    · refine hsound.tracks.quiet rfl rfl rfl ?_ ?_ ?_
      · rw [pendingCalls_put, hputs]
        simp [CallerPhase.puts, calledCalls]
      · intro _
        exact .inr hmaking
      · exact nofun
    · rw [append_nil]
      refine ⟨hopened, ?_⟩
      intro outcome houtcome
      simp [hresponse] at houtcome
    · rw [append_nil]
      exact hsound.laws
  · simp only [if_neg hsynchronous]
    rw [Bool.not_eq_true] at hsynchronous
    refine ⟨?_, ?_, ?_, trivial, ?_⟩
    · refine hsound.draining.sameQueue rfl hsentinel rfl ?_ (.inl rfl)
      exact nofun
    · constructor
      · refine ⟨queue ++ [call], ?_, ?_⟩
        · intro other hother
          rcases mem_append.mp hother with hother | hother
          · exact hasync other hother
          · rw [mem_singleton.mp hother]
            exact hsynchronous
        · rw [pendingCalls_put, hqueue, hresponse]
          simp [CallerPhase.awaits]
      · rw [hresponse]
        exact nofun
      · exact nofun
    · refine hsound.tracks.quiet rfl rfl rfl ?_ ?_ ?_
      · rw [pendingCalls_put, hputs]
        simp [CallerPhase.puts, calledCalls, RecorderEvent.called?]
      · intro _
        exact .inr hmaking
      · intro hstate _
        simp [hclosed] at hstate
    · apply hsound.laws.returned
      obtain ⟨left, hleft, hunfailed⟩ := hopened
      refine ⟨left, hleft, .inr ⟨hunfailed, ?_, ?_⟩⟩
      · intro hsync
        simp [hsync] at hsynchronous
      · exact nofun

theorem Sound.finish (hawaits : state.caller.awaits = [call])
    (hclosed : state.closed = false) (hpending : state.pendingCalls = [])
    (hreturn : returnLaw recorder start entries (.ended call ending))
    (hraise : raiseLaw entries (.ended call ending)) :
    let finished := { state with response := none }.finish call ending
    Sound recorder start (entries ++ finished.1) finished.2 := by
  have hputs : state.caller.puts = [] := by
    cases hcaller : state.caller with
    | putting other =>
      rw [hcaller] at hawaits
      cases hawaits
    | _ => rfl
  have hmaking : state.caller.isMaking = true := by
    cases hcaller : state.caller with
    | waiting other => rfl
    | _ =>
      rw [hcaller] at hawaits
      cases hawaits
  have hempty : ∀ next : AsyncRecorder R F E P, next.response = none →
      next.pendingCalls = [] → next.caller.awaits = [] → Awaiting next := by
    intro next hresponse hnext hcaller
    constructor
    · refine ⟨[], by simp, ?_⟩
      rw [hnext, hcaller, ite_self, append_nil]
    · rw [hresponse]
      exact nofun
    · rw [hcaller]
      exact nofun
  unfold AsyncRecorder.finish
  by_cases hfinalize : call.finalizes = true
  · simp only [if_pos hfinalize]
    obtain rfl := RecorderCall.eq_finalize hfinalize
    refine ⟨?_, hempty _ rfl hpending rfl, ?_, ?_, ?_⟩
    · refine hsound.draining.sameQueue rfl id rfl ?_ (.inr hclosed)
      exact nofun
    · refine hsound.tracks.quiet rfl rfl rfl ?_ ?_ ?_
      · rw [hputs]
        simp [CallerPhase.puts, calledCalls, pendingCalls]
      · intro _
        exact .inr hmaking
      · exact nofun
    · rw [append_nil]
      exact ⟨hreturn, hraise, fun _ _ => hpending⟩
    · rw [append_nil]
      exact hsound.laws
  · simp only [if_neg hfinalize]
    refine ⟨?_, hempty _ rfl hpending rfl, ?_, trivial,
      hsound.laws.ended hreturn hraise⟩
    · refine hsound.draining.sameQueue rfl id rfl ?_ (.inl rfl)
      exact nofun
    · refine hsound.tracks.quiet rfl rfl (appliedCalls_ended _) ?_ ?_ ?_
      · rw [hputs, calledCalls_ended]
        simp [CallerPhase.puts, pendingCalls]
      · intro _
        exact .inr hmaking
      · intro hstate _
        rw [hclosed] at hstate
        cases hstate

theorem Sound.receiveResponse
    (hcaller : state.caller = .waiting call) {response : Except E P}
    (hresponse : state.response = some response) :
    Sound recorder start (entries ++ (state.receiveResponse call response).1)
      (state.receiveResponse call response).2 := by
  have hawaits : state.caller.awaits = [call] := by
    rw [hcaller]
    rfl
  have hmaking : state.caller.isMaking = true := by
    rw [hcaller]
    rfl
  have hclosed := hsound.draining.making hmaking
  have hpending : state.pendingCalls = [] :=
    (hsound.awaiting.response (by rw [hresponse]; rfl)).2
  have hanswering := hsound.answering
  rw [Answering, hcaller] at hanswering
  obtain ⟨⟨left, hleft, hunfailed⟩, hresponds⟩ := hanswering
  have hresponse := hresponds response hresponse
  unfold AsyncRecorder.receiveResponse
  cases response with
  | error error =>
    apply hsound.finish hawaits hclosed hpending
    · trivial
    · exact ⟨⟨left, hleft⟩, call, hresponse.cause error rfl⟩
  | ok answer =>
    cases herror : state.error with
    | some cause =>
      have hraise : raiseLaw entries (.ended call
          (.error (.workerFailed cause) : Except (CallError E) P)) :=
        ⟨⟨left, hleft⟩, hsound.tracks.cause cause herror⟩
      have hreturn : returnLaw recorder start entries (.ended call
          (.error (.workerFailed cause))) := trivial
      have hfinish := hsound.finish hawaits hclosed hpending hreturn hraise
      rw [herror] at hfinish
      exact hfinish
    | none =>
      have hreturn : returnLaw recorder start entries
          (.ended call (.ok answer)) := by
        refine ⟨left, hleft, .inr ⟨hunfailed, fun _ => rfl, ?_⟩⟩
        intro given hgiven
        rw [← Option.some.inj hgiven]
        exact ⟨hsound.tracks.unfailed herror, hresponse.agrees left hleft⟩
      have hfinish := hsound.finish hawaits hclosed hpending hreturn trivial
      rw [herror] at hfinish
      exact hfinish

end

theorem pendingCalls_putSentinel (state : AsyncRecorder R F E P)
    (ending : Except (CallError E) P) :
    (state.putSentinel ending).pendingCalls = state.pendingCalls := by
  simp only [pendingCalls, AsyncRecorder.putSentinel,
    reduceOption_append, reduceOption_singleton, Option.toList_none,
    append_nil]

theorem Sound.putSentinel (hsound : Sound recorder start entries state) (hcaller : state.caller = .closing ending) :
    Sound recorder start (entries ++ []) (state.putSentinel ending) := by
  have hawaits : state.caller.awaits = [] := by
    rw [hcaller]
    rfl
  have hresponse := hsound.awaiting.response_none hawaits
  have hpending := state.pendingCalls_putSentinel ending
  have hanswering := hsound.answering
  rw [Answering, hcaller] at hanswering
  refine ⟨?_, ?_, ?_, ?_, ?_⟩
  · constructor
    · exact nofun
    · exact nofun
    · intro other _
      exact ⟨rfl, fun _ => mem_append_right _ mem_cons_self⟩
    · exact nofun
    · exact nofun
  · exact hsound.awaiting.quiet hawaits rfl hresponse hpending
  · refine hsound.tracks.quiet rfl rfl rfl ?_ ?_ ?_
    · rw [hpending, hcaller]
      simp [CallerPhase.puts, calledCalls, AsyncRecorder.putSentinel]
    · intro hopen
      rcases hopen with hcalled | ⟨_, hopen⟩ | hmaking
      · exact absurd rfl hcalled
      · cases hopen
      · cases hmaking
    · exact nofun
  · rw [append_nil]
    exact ⟨hanswering.returns, hanswering.raises, fun answer hanswer => by
      rw [hpending]
      exact hanswering.drained answer hanswer⟩
  · rw [append_nil]
    exact hsound.laws

theorem Sound.join (hsound : Sound recorder start entries state)
    (hcaller : state.caller = .joining ending) :
    Sound recorder start (entries ++ [.ended .finalize ending])
      { state with caller := .idle } := by
  have hawaits : state.caller.awaits = [] := by
    rw [hcaller]
    rfl
  have hclosed := (hsound.draining.joining ending hcaller).1
  have hanswering := hsound.answering
  rw [Answering, hcaller] at hanswering
  refine ⟨?_, ?_, ?_, trivial, ?_⟩
  · refine hsound.draining.sameQueue rfl id rfl ?_ (.inl rfl)
    exact nofun
  · exact hsound.awaiting.quiet hawaits rfl
      (hsound.awaiting.response_none hawaits) rfl
  · refine hsound.tracks.quiet rfl rfl (appliedCalls_ended _) ?_ ?_ ?_
    · rw [calledCalls_ended, hcaller]
      simp [CallerPhase.puts, pendingCalls]
    · intro hopen
      rcases hopen with hcalled | ⟨_, hopen⟩ | hmaking
      · exact absurd (calledCalls_ended _) hcalled
      · exact absurd hclosed (by rw [hopen]; exact Bool.false_ne_true)
      · cases hmaking
    · intro _ _
      exact ended_finalize ending
  · exact hsound.laws.ended hanswering.returns hanswering.raises

/-! ## Steps of the worker -/

theorem pendingCalls_take (command : Option (RecorderCall F))
    (commands : List (Option (RecorderCall F)))
    (hrunning : state.running = none)
    (hcommands : state.commands = command :: commands) :
    (state.takeCommand command commands).pendingCalls =
      state.pendingCalls := by
  cases command with
  | none | some call => simp [pendingCalls, takeCommand, hrunning, hcommands]

theorem Draining.takeCommand (hdraining : Draining state)
    {commands : List (Option (RecorderCall F))}
    (hcommands : state.commands = command :: commands) :
    Draining (state.takeCommand command commands) := by
  cases command with
  | none =>
    have hclosed : state.closed = true := by
      by_contra hopen
      rw [Bool.not_eq_true] at hopen
      apply hdraining.sentinel hopen
      rw [hcommands]
      exact mem_cons_self
    constructor
    · intro hopen
      rw [show state.closed = false from hopen] at hclosed
      cases hclosed
    · intro hopen
      rw [show state.closed = false from hopen] at hclosed
      cases hclosed
    · intro ending _
      exact ⟨hclosed, fun halive => by cases halive⟩
    · exact hdraining.making
    · exact hdraining.closing
  | some call =>
    have hnone : none ∈ state.commands ↔ none ∈ commands := by
      rw [hcommands, mem_cons]
      simp
    constructor
    · exact hdraining.alive
    · intro hopen hmember
      exact hdraining.sentinel hopen (hnone.mpr hmember)
    · intro ending hcaller
      obtain ⟨hclosed, hsentinel⟩ := hdraining.joining ending hcaller
      exact ⟨hclosed, fun halive => hnone.mp (hsentinel halive)⟩
    · exact hdraining.making
    · exact hdraining.closing

theorem takeCommand_same (state : AsyncRecorder R F E P)
    (command : Option (RecorderCall F))
    (commands : List (Option (RecorderCall F))) :
    (state.takeCommand command commands).recorder = state.recorder ∧
      (state.takeCommand command commands).error = state.error ∧
      (state.takeCommand command commands).closed = state.closed ∧
      (state.takeCommand command commands).response = state.response ∧
      (state.takeCommand command commands).caller = state.caller := by
  cases command <;> exact ⟨rfl, rfl, rfl, rfl, rfl⟩

theorem Sound.takeCommand (hsound : Sound recorder start entries state)
    {commands : List (Option (RecorderCall F))}
    (hrunning : state.running = none)
    (hcommands : state.commands = command :: commands) :
    Sound recorder start (entries ++ [])
      (state.takeCommand command commands) := by
  obtain ⟨hrecorder, herror, hclosed, hresponse, hcaller⟩ :=
    state.takeCommand_same command commands
  have hpending := pendingCalls_take command commands hrunning hcommands
  refine ⟨hsound.draining.takeCommand hcommands, ?_, ?_, ?_, ?_⟩
  · constructor
    · rw [hpending, hresponse, hcaller]
      exact hsound.awaiting.queue
    · rw [hpending, hresponse, hcaller]
      exact hsound.awaiting.response
    · rw [hcaller]
      exact hsound.awaiting.synchronous
  · refine hsound.tracks.quiet hrecorder herror rfl ?_ ?_ ?_
    · rw [hpending, hcaller]
      simp [calledCalls]
    · rw [herror, hclosed, hcaller]
      intro hopen
      rcases hopen with hcalled | hopen
      · exact absurd rfl hcalled
      · exact hopen
    · rw [hclosed, hcaller, append_nil]
      exact hsound.tracks.ended
  · have hanswering := hsound.answering
    rw [Answering] at hanswering ⊢
    rw [hcaller, hresponse, append_nil]
    cases hphase : state.caller with
    | closing ending | joining ending =>
      rw [hphase] at hanswering
      exact ⟨hanswering.returns, hanswering.raises,
        fun answer hanswer => hpending.trans
          (hanswering.drained answer hanswer)⟩
    | _ =>
      rw [hphase] at hanswering
      exact hanswering
  · rw [append_nil]
    exact hsound.laws

theorem pendingCalls_run (hrunning : state.running = some call) :
    state.pendingCalls = call :: state.commands.reduceOption := by
  rw [pendingCalls, hrunning]
  rfl

theorem pendingCalls_runCommand (state : AsyncRecorder R F E P)
    (call : RecorderCall F) :
    (state.runCommand recorder call).2.pendingCalls =
      state.commands.reduceOption :=
  rfl

theorem runCommand_applied (recorder : BaseRecorder R F E P)
    (state : AsyncRecorder R F E P) (call : RecorderCall F) :
    ∀ entry ∈ (state.runCommand recorder call).1, entry.isApplied = true := by
  intro entry hentry
  rw [mem_singleton.mp hentry]
  rfl

theorem Tracks.runCommand (htracks : Tracks recorder start entries state)
    (hrunning : state.running = some call) :
    Tracks recorder start (entries ++ (state.runCommand recorder call).1)
      (state.runCommand recorder call).2 := by
  have haccepted : accepted (entries ++ (state.runCommand recorder call).1)
      (state.runCommand recorder call).2 = accepted entries state := by
    rw [accepted, accepted, pendingCalls_run hrunning,
      pendingCalls_runCommand, appliedCalls_append]
    simp [AsyncRecorder.runCommand, appliedCalls, RecorderEvent.applied?]
  have hcalled : calledCalls (entries ++ (state.runCommand recorder call).1) =
      calledCalls entries := by
    rw [calledCalls_append]
    exact append_nil _
  constructor
  · rw [appliedCalls_append, recorder.after_append, ← htracks.recorder]
    rfl
  · intro hnone hfailed
    obtain ⟨other, error, hentry⟩ := hfailed
    cases houtcome : (recorder.apply call state.recorder).1 with
    | error raised =>
      simp [AsyncRecorder.runCommand, houtcome] at hnone
    | ok answer =>
      simp only [AsyncRecorder.runCommand, houtcome] at hnone hentry
      apply htracks.unfailed hnone
      rcases mem_append.mp hentry with hentry | hentry
      · exact ⟨other, error, hentry⟩
      · rw [mem_singleton] at hentry
        cases hentry
  · intro error hsome
    cases houtcome : (recorder.apply call state.recorder).1 with
    | error raised =>
      simp only [AsyncRecorder.runCommand, houtcome] at hsome ⊢
      cases hsome
      exact ⟨call, mem_append_right _ mem_cons_self⟩
    | ok answer =>
      simp only [AsyncRecorder.runCommand, houtcome] at hsome ⊢
      obtain ⟨other, hother⟩ := htracks.cause error hsome
      exact ⟨other, mem_append_left _ hother⟩
  · rw [haccepted, hcalled]
    exact htracks.order
  · intro hopen
    rw [haccepted, hcalled]
    apply htracks.all
    rcases hopen with ⟨hnone, hopen⟩ | hmaking
    · left
      refine ⟨?_, hopen⟩
      cases houtcome : (recorder.apply call state.recorder).1 with
      | error raised => simp [AsyncRecorder.runCommand, houtcome] at hnone
      | ok answer =>
        simp only [AsyncRecorder.runCommand, houtcome] at hnone
        exact hnone
    · exact .inr hmaking
  · intro hclosed hidle
    exact (htracks.ended hclosed hidle).append

theorem Awaiting.running_synchronous (hawaiting : Awaiting state)
    (hrunning : state.running = some call)
    (hsynchronous : call.synchronous = true) :
    state.caller.awaits = [call] ∧ state.pendingCalls = [call] ∧
      state.response = none := by
  have hfirst := pendingCalls_run hrunning
  obtain ⟨queue, hasync, hqueue⟩ := hawaiting.queue
  have hresponse : state.response = none := by
    cases hresponse : state.response with
    | none => rfl
    | some outcome =>
      have hempty := (hawaiting.response (by rw [hresponse]; rfl)).2
      rw [hfirst] at hempty
      cases hempty
  rw [hresponse] at hqueue
  cases queue with
  | cons first queue =>
    have hhead : first = call := by
      rw [hfirst] at hqueue
      exact (head_eq_of_cons_eq hqueue).symm
    have hfalse := hasync first mem_cons_self
    rw [hhead, hsynchronous] at hfalse
    cases hfalse
  | nil =>
    have hawaits : state.pendingCalls = state.caller.awaits := hqueue
    have hone : state.caller.awaits = [call] := by
      rw [hawaits] at hfirst
      cases hcaller : state.caller with
      | waiting other =>
        rw [hcaller] at hfirst
        rw [head_eq_of_cons_eq hfirst]
        rfl
      | _ =>
        rw [hcaller] at hfirst
        cases hfirst
    exact ⟨hone, hawaits.trans hone, hresponse⟩

theorem Awaiting.runCommand (hawaiting : Awaiting state)
    (hrunning : state.running = some call) :
    Awaiting (state.runCommand recorder call).2 := by
  by_cases hsynchronous : call.synchronous = true
  · obtain ⟨hawaits, hpending, _⟩ :=
      hawaiting.running_synchronous hrunning hsynchronous
    have hnext : (state.runCommand recorder call).2.pendingCalls = [] := by
      rw [pendingCalls_run hrunning] at hpending
      exact (List.cons.inj hpending).2
    have hresponse : (state.runCommand recorder call).2.response.isSome := by
      simp [AsyncRecorder.runCommand, hsynchronous]
    constructor
    · refine ⟨[], by simp, ?_⟩
      rw [hnext, if_pos hresponse, append_nil]
    · intro _
      refine ⟨?_, hnext⟩
      rw [show (state.runCommand recorder call).2.caller = state.caller
        from rfl, hawaits]
      exact cons_ne_nil _ _
    · exact hawaiting.synchronous
  · obtain ⟨queue, hasync, hqueue⟩ := hawaiting.queue
    have hresponse : (state.runCommand recorder call).2.response =
        state.response := if_neg hsynchronous
    rw [pendingCalls_run hrunning] at hqueue
    cases queue with
    | nil =>
      exfalso
      apply hsynchronous
      apply hawaiting.synchronous
      cases hsome : state.response.isSome with
      | true =>
        simp [hsome] at hqueue
      | false =>
        rw [hsome] at hqueue
        rw [← show call :: _ = state.caller.awaits from hqueue]
        exact mem_cons_self
    | cons first queue =>
      constructor
      · refine ⟨queue, ?_, ?_⟩
        · intro other hother
          exact hasync other (mem_cons_of_mem _ hother)
        · rw [hresponse]
          exact (List.cons.inj hqueue).2
      · rw [hresponse]
        intro hsome
        have hempty := (hawaiting.response hsome).2
        rw [pendingCalls_run hrunning] at hempty
        cases hempty
      · exact hawaiting.synchronous

theorem Sound.responds (hsound : Sound recorder start entries state)
    (hrunning : state.running = some call)
    (hsynchronous : call.synchronous = true) :
    Responds recorder start
      (entries ++ (state.runCommand recorder call).1) call
      (recorder.apply call state.recorder).1 := by
  obtain ⟨hawaits, hpending, _⟩ :=
    hsound.awaiting.running_synchronous hrunning hsynchronous
  have hmaking : state.caller.isMaking = true := by
    cases hcaller : state.caller with
    | waiting other => rfl
    | _ =>
      rw [hcaller] at hawaits
      cases hawaits
  have hputs : state.caller.puts = [] := by
    cases hcaller : state.caller with
    | putting other =>
      rw [hcaller] at hawaits
      cases hawaits
    | _ => rfl
  have hall := hsound.tracks.all (.inr hmaking)
  rw [accepted, hpending, hputs, append_nil] at hall
  refine ⟨?_, ?_⟩
  · intro left hleft
    have hcalled := hleft.calledCalls
    rw [calledCalls_append] at hcalled
    have hsame : appliedCalls entries = calledCalls left := by
      rw [← hall] at hcalled
      exact (append_inj' ((append_nil _).symm.trans hcalled) rfl).1
    rw [← hsame, ← hsound.tracks.recorder]
  · intro error herror
    apply mem_append_right
    rw [← herror]
    exact mem_cons_self

theorem Closes.runCommand
    (hcloses : Closes recorder start entries state ending)
    (hrunning : state.running = some call) :
    Closes recorder start (entries ++ (state.runCommand recorder call).1)
      (state.runCommand recorder call).2 ending := by
  cases ending with
  | error error =>
    refine ⟨trivial, raiseLaw_append hcloses.raises
      (runCommand_applied recorder state call), ?_⟩
    exact nofun
  | ok answer =>
    have hempty := hcloses.drained answer rfl
    rw [pendingCalls_run hrunning] at hempty
    cases hempty

theorem Opened.append (hopened : Opened entries call)
    (hmore : ∀ entry ∈ more, entry.isApplied = true) :
    Opened (entries ++ more) call := by
  obtain ⟨left, hleft, hunfailed⟩ := hopened
  exact ⟨left, hleft.append hmore, hunfailed⟩

theorem Sound.runCommand (hsound : Sound recorder start entries state)
    (hrunning : state.running = some call) :
    Sound recorder start (entries ++ (state.runCommand recorder call).1)
      (state.runCommand recorder call).2 := by
  have happlied := runCommand_applied recorder state call
  refine ⟨?_, hsound.awaiting.runCommand hrunning,
    hsound.tracks.runCommand hrunning, ?_, ?_⟩
  · constructor
    · exact hsound.draining.alive
    · exact hsound.draining.sentinel
    · exact hsound.draining.joining
    · exact hsound.draining.making
    · exact hsound.draining.closing
  · have hanswering := hsound.answering
    rw [Answering] at hanswering ⊢
    rw [show (state.runCommand recorder call).2.caller = state.caller from rfl]
    cases hphase : state.caller with
    | idle => trivial
    | putting other =>
      rw [hphase] at hanswering
      exact hanswering.append happlied
    | waiting other =>
      rw [hphase] at hanswering
      refine ⟨hanswering.1.append happlied, ?_⟩
      intro outcome houtcome
      by_cases hsynchronous : call.synchronous = true
      · have hresponds := hsound.responds hrunning hsynchronous
        obtain ⟨hawaits, _, _⟩ :=
          hsound.awaiting.running_synchronous hrunning hsynchronous
        rw [hphase] at hawaits
        obtain rfl := (head_eq_of_cons_eq hawaits).symm
        have hsome : (state.runCommand recorder call).2.response =
            some (recorder.apply call state.recorder).1 :=
          if_pos hsynchronous
        rw [hsome] at houtcome
        rw [← Option.some.inj houtcome]
        exact hresponds
      · have hsame : (state.runCommand recorder call).2.response =
            state.response := if_neg hsynchronous
        rw [hsame] at houtcome
        have hempty := (hsound.awaiting.response (by rw [houtcome]; rfl)).2
        rw [pendingCalls_run hrunning] at hempty
        cases hempty
    | closing ending | joining ending =>
      rw [hphase] at hanswering
      exact hanswering.runCommand hrunning
  · apply hsound.laws.applied
    rw [outcomeLaw, ← hsound.tracks.recorder]

end AsyncRecorder
end VerlVla
