import VerlVla.RecordedTraining

/-!
# Runs of a recorded environment

The environment makes its recorder calls one at a time.  Whichever way it calls
the recorder, an answer is the one that the calls made so far lead to, so a run
of the environment executes its moves as on a recorder called directly.
-/

namespace VerlVla

open List hiding after cons get nil

open Transition
open BaseEnv (EnvConfig Mask noEnvs)

/-! ## What a recorder that can be called answers -/

section Serving

variable {R F E P σ ι : Type}

/-- A synchronous call that returns has the answer of the recorder after the
calls made before, unless it is a repeated `finalize`. -/
def answerLaw (recorder : BaseRecorder R F E P) (start : R)
    (entries : List (RecorderEvent F E P)) : RecorderEvent F E P → Prop
  | .returned call answer =>
    ∃ left, CallOpen entries left call ∧
      ((call.synchronous = true → answer.isSome) ∨ Ended left) ∧
      ∀ given, answer = some given → (recorder.apply call
          (recorder.after start (calledCalls left))).1 = .ok given
  | .raised call _ =>
    (∃ left, CallOpen entries left call) ∧ (Failed entries ∨ Ended entries)
  | _ => True

structure Served (recorder : BaseRecorder R F E P) (start : R)
    (entries : List (RecorderEvent F E P)) : Prop where
  applied : appliedCalls entries <+: calledCalls entries
  outcomes : Lawful (outcomeLaw recorder start) entries
  answers : Lawful (answerLaw recorder start) entries

structure Serves (recorder : BaseRecorder R F E P) (start : R)
    (callable : CallableRecorder F E P σ ι) (initial : σ) : Prop where
  called : ∀ state call output next,
    callable.machine.step state (callable.call call) = some (output, next) →
      calledCalls output = [call]
  silent : ∀ state label output next, callable.isCall label = false →
    callable.machine.step state label = some (output, next) →
      calledCalls output = []
  log : ∀ events final, Run callable.machine initial events final →
    Served recorder start (log events)

theorem answerLaw_of_laws (hreturn : returnLaw recorder start entries entry)
    (hraise : raiseLaw entries entry) :
    answerLaw recorder start entries entry := by
  cases entry with
  | returned call answer =>
    obtain ⟨left, hleft, hcall⟩ := hreturn
    rcases hcall with ⟨_, hnone, hended⟩ | ⟨_, hsome, hgiven⟩
    · refine ⟨left, hleft, .inr hended, ?_⟩
      intro given heq
      simp [hnone] at heq
    · exact ⟨left, hleft, .inl hsome, fun given heq => (hgiven given heq).2⟩
  | raised call error =>
    obtain ⟨hopen, hcause⟩ := hraise
    refine ⟨hopen, ?_⟩
    cases error with
    | own error =>
      obtain ⟨other, hother⟩ := hcause
      exact .inl ⟨other, error, hother⟩
    | workerFailed cause =>
      obtain ⟨other, hother⟩ := hcause
      exact .inl ⟨other, cause, hother⟩
    | finalized => exact .inr hcause
  | _ => trivial

theorem calledCalls_finish (state : AsyncRecorder R F E P)
    (call : RecorderCall F) (ending : Except (CallError E) P) :
    calledCalls (state.finish call ending).1 = [] := by
  unfold AsyncRecorder.finish
  split_ifs
  · rfl
  · exact calledCalls_ended ending

theorem calledCalls_makeCall (state : AsyncRecorder R F E P)
    (call : RecorderCall F) : calledCalls (state.makeCall call).1 = [call] := by
  unfold AsyncRecorder.makeCall
  by_cases hrepeat : (call.finalizes && state.closed) = true
  · rw [if_pos hrepeat]
    rfl
  rw [if_neg hrepeat]
  cases state.error with
  | some cause =>
    have hfinish := calledCalls_finish state call
      (.error (.workerFailed cause))
    change calledCalls ([.called call] ++
      (state.finish call (.error (.workerFailed cause))).1) = [call]
    rw [calledCalls_append, hfinish]
    rfl
  | none =>
    by_cases hclosed : state.closed = true
    · simp only [if_pos hclosed]
      rfl
    · simp only [if_neg hclosed]
      rfl

theorem backgroundRecorder_serves (recorder : BaseRecorder R F E P)
    (start : R) (queueSize : ℕ) :
    Serves recorder start (backgroundRecorder recorder queueSize)
      (.start start) := by
  constructor
  · intro state call output next hstep
    have hmove := AsyncRecorder.move_of_step recorder queueSize
      (show state.step recorder queueSize (.call call) = _ from hstep)
    generalize hresult : (output, next) = result at hmove
    obtain rfl := (Prod.mk.inj hresult.symm).1
    cases hmove with
    | call _ _ => exact calledCalls_makeCall state call
  · intro state label output next hlabel hstep
    have hmove := AsyncRecorder.move_of_step recorder queueSize
      (show state.step recorder queueSize label = _ from hstep)
    generalize hresult : (output, next) = result at hmove
    obtain rfl := (Prod.mk.inj hresult.symm).1
    cases hmove with
    | call _ _ => cases hlabel
    | @put call _ _ =>
      unfold AsyncRecorder.putCommand
      split_ifs <;> rfl
    | @receive call response _ _ =>
      unfold AsyncRecorder.receiveResponse
      split <;> exact calledCalls_finish _ _ _
    | close _ _ => rfl
    | join _ _ => exact calledCalls_ended _
    | get _ _ _ | run _ => rfl
  · intro events final hrun
    have hsound := AsyncRecorder.sound_run hrun
    have happlied : appliedCalls (Transition.log events) <+:
        AsyncRecorder.accepted (Transition.log events) final :=
      prefix_append _ _
    refine ⟨happlied.trans hsound.tracks.order, hsound.laws.outcomes, ?_⟩
    intro left entry right hentries
    exact answerLaw_of_laws (hsound.laws.returns left entry right hentries)
      (hsound.laws.raises left entry right hentries)

theorem directRecorder_serves (recorder : BaseRecorder R F E P) (start : R) :
    Serves recorder start (directRecorder recorder) start := by
  have hcalled : ∀ (call : RecorderCall F) (outcome : Except E P),
      calledCalls [.called call, .applied call outcome,
        .ended call (outcome.mapError .own)] = [call] := by
    intro call outcome
    cases outcome <;> rfl
  have happlied : ∀ (call : RecorderCall F) (outcome : Except E P),
      appliedCalls [.called call, .applied call outcome,
        .ended call (outcome.mapError .own)] = [call] := by
    intro call outcome
    cases outcome <;> rfl
  refine ⟨?_, ?_, ?_⟩
  · intro state call output next hstep
    obtain ⟨rfl, _⟩ := Prod.mk.inj (Option.some.inj hstep)
    exact hcalled _ _
  · exact nofun
  · intro events final hrun
    have hboth := hrun.log_invariant (fun _ _ => True)
      (fun entries state => state = recorder.after start (appliedCalls entries) ∧
        appliedCalls entries = calledCalls entries ∧
        Served recorder start entries)
      ?_ (fun _ _ => trivial)
      ⟨rfl, rfl, prefix_refl _, lawful_nil, lawful_nil⟩
    · exact hboth.2.2
    intro entries state call output next hstate _ hstep
    obtain ⟨hrecorder, hsame, hserved⟩ := hstate
    cases hstep
    have hopen : CallOpen (entries ++ [.called call] ++
        [.applied call (recorder.apply call state).1]) entries call := by
      apply callOpen_called.append
      intro entry hentry
      rw [mem_singleton.mp hentry]
      rfl
    have hsplit : ∀ ending : RecorderEvent F E P, entries ++ [.called call,
        .applied call (recorder.apply call state).1, ending] =
          entries ++ [.called call] ++
            [.applied call (recorder.apply call state).1] ++ [ending] := by
      intro ending
      simp
    refine ⟨?_, ?_, ?_⟩
    · rw [appliedCalls_append, happlied, recorder.after_append, ← hrecorder]
      rfl
    · rw [appliedCalls_append, calledCalls_append, happlied, hcalled, hsame]
    · refine ⟨?_, ?_, ?_⟩
      · rw [appliedCalls_append, calledCalls_append, happlied, hcalled, hsame]
      · have hbegun : Lawful (outcomeLaw recorder start)
            (entries ++ [.called call]) := hserved.outcomes.snoc trivial
        rw [hsplit]
        apply Lawful.snoc
        · apply hbegun.snoc
          rw [outcomeLaw, appliedCalls_append]
          rw [show appliedCalls [RecorderEvent.called call] = ([] : List _)
            from rfl, append_nil, ← hrecorder]
        · cases (recorder.apply call state).1 <;> trivial
      · have hbegun : Lawful (answerLaw recorder start)
            (entries ++ [.called call]) := hserved.answers.snoc trivial
        have hdone : Lawful (answerLaw recorder start)
            (entries ++ [.called call] ++
              [.applied call (recorder.apply call state).1]) :=
          hbegun.snoc trivial
        rw [hsplit]
        apply hdone.snoc
        cases houtcome : (recorder.apply call state).1 with
        | ok given =>
          rw [houtcome] at hopen
          refine ⟨entries, hopen, .inl fun _ => rfl, ?_⟩
          intro other hother
          rw [← Option.some.inj hother, ← hsame, ← hrecorder]
          exact houtcome
        | error error =>
          rw [houtcome] at hopen
          exact ⟨⟨entries, hopen⟩, .inl ⟨call, error,
            mem_append_right _ mem_cons_self⟩⟩

end Serving

/-! ## Where a run is -/

variable {n : ℕ} {O X A D I σ ι : Type}

def RecordingEvent.recorder? {E : Type} : RecordingEvent n O X A E D →
      Option (RecorderEvent (RecordedStep O X A) E (RecorderAnswer D))
  | .recorder event => some event
  | _ => none

def RecordingEvent.began? {E : Type} :
    RecordingEvent n O X A E D → Option (RecordingMove n O X A)
  | .began move => some move
  | _ => none

def recorderLog {E : Type} (entries : List (RecordingEvent n O X A E D)) :
    List (RecorderEvent (RecordedStep O X A) E (RecorderAnswer D)) :=
  entries.filterMap RecordingEvent.recorder?

def movesOf {E : Type} (entries : List (RecordingEvent n O X A E D)) :
    List (RecordingMove n O X A) :=
  entries.filterMap RecordingEvent.began?

/-- What is left of the move, with the call that is being made. -/
def RecordedEnv.rest (state : RecordedEnv n O X A σ) :
    List (RecordingInstr n O X A) :=
  state.current.toList.map .call ++ state.instrs

section Positions

variable {makeFrame : RecordedStep O X A → D}
  {panel : RecordedStep O X A → Option I} {video : Bool}
  {entries more : List (RecordingEvent n O X A (RecorderError Empty) D)}
  {state : RecordedEnv n O X A σ}
  {before : List (RecorderCall (RecordedStep O X A))}

structure WithinMove (makeFrame : RecordedStep O X A → D)
    (recorder : MultiRecorder D I)
    (moves : List (RecordingMove n O X A))
    (rest : List (RecordingInstr n O X A)) : Prop where
  last : rest = [] ∨ ∃ earlier move done, moves = earlier ++ [move] ∧
    move.instrs (CollectedEpisodes.after makeFrame earlier).settled =
      done ++ rest ∧
    (done = [] → Holds (CollectedEpisodes.after makeFrame earlier) recorder)

/-- `before` are the calls that have ended.  The rest of the move leads to a
recorder that holds what the moves collect. -/
structure Position (makeFrame : RecordedStep O X A → D)
    (panel : RecordedStep O X A → Option I) (video : Bool)
    (entries : List (RecordingEvent n O X A (RecorderError Empty) D))
    (state : RecordedEnv n O X A σ)
    (before : List (RecorderCall (RecordedStep O X A))) : Prop where
  calls : calledCalls (recorderLog entries) = before ++ state.current.toList
  opened : ∀ call left, CallOpen (recorderLog entries) left call →
    state.current = some call
  executes : ∃ moved, execute (frameRecorder n makeFrame panel)
      ((frameRecorder n makeFrame panel).after (.create video) before)
      state.episodeDone state.rest = some (moved,
          (CollectedEpisodes.after makeFrame (movesOf entries)).settled) ∧
    Holds (CollectedEpisodes.after makeFrame (movesOf entries)) moved
  answered : ∀ left call right, before = left ++ call :: right →
    ∃ given, ((frameRecorder n makeFrame panel).apply call
      ((frameRecorder n makeFrame panel).after (.create video) left)).1 =
        .ok given
  running : ∀ call ∈ before ++ state.current.toList, call.finalizes = false
  within : WithinMove makeFrame
    ((frameRecorder n makeFrame panel).after (.create video) before)
    (movesOf entries) state.rest

variable {call : RecorderCall (RecordedStep O X A)}

theorem RecordingMove.instrs_running (move : RecordingMove n O X A)
    (flags : Mask n)
    (hcall : .call call ∈ move.instrs flags) : call.finalizes = false := by
  cases move with
  | setMode mode =>
    simp only [instrs, mem_singleton, RecordingInstr.call.injEq] at hcall
    rw [hcall]
    rfl
  | resetEnv envId =>
    simp [instrs] at hcall
    rw [hcall]
    rfl
  | recordStep envId step =>
    simp only [instrs] at hcall
    split_ifs at hcall
    · cases hcall
    · simp at hcall
      rcases hcall with rfl | rfl <;> rfl
    · simp at hcall
      rw [hcall]
      rfl
  | finishEnv envId =>
    simp only [instrs] at hcall
    split_ifs at hcall
    · cases hcall
    · simp at hcall
      rw [hcall]
      rfl
  | flush | popCompleted =>
    simp only [instrs, mem_singleton, RecordingInstr.call.injEq] at hcall
    rw [hcall]
    rfl

theorem RecordingMove.eq_popCompleted {move : RecordingMove n O X A}
    (hinstrs : move.instrs flags = done ++ .call .popCompleted :: rest) :
    move = .popCompleted ∧ done = [] := by
  have hmember : .call .popCompleted ∈ move.instrs flags := by
    rw [hinstrs]
    exact mem_append_right _ mem_cons_self
  cases move with
  | popCompleted =>
    cases done with
    | nil => exact ⟨rfl, rfl⟩
    | cons first done =>
      have hnil := (List.cons.inj hinstrs).2
      cases done <;> cases hnil
  | setMode mode | resetEnv envId => simp [instrs] at hmember
  | recordStep envId step | finishEnv envId =>
    simp only [instrs] at hmember
    split_ifs at hmember <;> simp at hmember
  | flush => simp [instrs] at hmember

theorem WithinMove.running (hwithin : WithinMove makeFrame recorder moves rest)
    (hcall : .call call ∈ rest) :
    call.finalizes = false := by
  rcases hwithin.last with hnil | ⟨earlier, move, done, _, hinstrs, _⟩
  · simp [hnil] at hcall
  · apply move.instrs_running
      (CollectedEpisodes.after makeFrame earlier).settled
    rw [hinstrs]
    exact mem_append_right _ hcall

theorem WithinMove.next {recorder other : MultiRecorder D I}
    {moves : List (RecordingMove n O X A)}
    {instr : RecordingInstr n O X A}
    (hwithin : WithinMove makeFrame recorder moves (instr :: rest)) :
    WithinMove makeFrame other moves rest := by
  rcases hwithin.last with hnil | ⟨earlier, move, done, hmoves, hinstrs, _⟩
  · cases hnil
  · refine ⟨.inr ⟨earlier, move, done ++ [instr], hmoves, ?_, ?_⟩⟩
    · rw [hinstrs, append_assoc, singleton_append]
    · intro hdone
      cases done <;> cases hdone

/-! ## The steps of a recorder call -/

@[simp] theorem recorderLog_append :
    recorderLog (entries ++ more) = recorderLog entries ++ recorderLog more :=
  filterMap_append

@[simp] theorem movesOf_append :
    movesOf (entries ++ more) = movesOf entries ++ movesOf more :=
  filterMap_append

section

variable (hposition : Position makeFrame panel video entries state before)

include hposition

theorem Position.called (hcurrent : state.current = none)
    (hinstrs : state.instrs = .call call :: instrs) :
    Position makeFrame panel video (entries ++ [.recorder (.called call)])
      { state with current := some call, instrs := state.instrs.tail }
      before := by
  have hrest : RecordedEnv.rest
      { state with current := some call, instrs := state.instrs.tail } =
        state.rest := by
    simp [RecordedEnv.rest, hcurrent, hinstrs]
  have hmoves : movesOf (entries ++ [.recorder (.called call)]) =
      movesOf entries := by
    rw [movesOf_append]
    exact append_nil _
  have hcalls := hposition.calls
  rw [hcurrent, Option.toList_none, append_nil] at hcalls
  constructor
  · rw [recorderLog_append, calledCalls_append, hcalls]
    rfl
  · intro other left hopen
    have heq := hopen.calledCalls
    rw [recorderLog_append, calledCalls_append] at heq
    have hlast := (append_inj' heq rfl).2
    exact congrArg some (head_eq_of_cons_eq hlast)
  · rw [hmoves, hrest]
    exact hposition.executes
  · exact hposition.answered
  · intro other hother
    rcases mem_append.mp hother with hother | hother
    · exact hposition.running other (mem_append_left _ hother)
    · rw [mem_singleton.mp hother]
      apply hposition.within.running
      simp [RecordedEnv.rest, hcurrent, hinstrs]
  · rw [hmoves, hrest]
    exact hposition.within

theorem Position.applied : Position makeFrame panel video
      (entries ++ [.recorder (.applied call outcome)]) state before := by
  have hmoves : movesOf (entries ++ [.recorder (.applied call outcome)]) =
      movesOf entries := by
    rw [movesOf_append]
    exact append_nil _
  constructor
  · rw [recorderLog_append, calledCalls_append, hposition.calls]
    exact append_nil _
  · intro other left hopen
    obtain ⟨right, heq, hright⟩ := hopen
    rw [recorderLog_append] at heq
    rcases eq_nil_or_concat' right with rfl | ⟨rest, last, rfl⟩
    · have hlast := (append_inj' heq rfl).2
      cases hlast
    · rw [← cons_append, ← append_assoc] at heq
      apply hposition.opened other left
      refine ⟨rest, (append_inj' heq rfl).1, ?_⟩
      intro entry hentry
      exact hright entry (mem_append_left _ hentry)
  · rw [hmoves]
    exact hposition.executes
  · exact hposition.answered
  · exact hposition.running
  · rw [hmoves]
    exact hposition.within

theorem Position.executes_current (hcurrent : state.current = some call) :
    ∃ given next moved, (frameRecorder n makeFrame panel).apply call
        ((frameRecorder n makeFrame panel).after (.create video) before) =
          (.ok given, next) ∧
      execute (frameRecorder n makeFrame panel) next
        (answeredFlags state.episodeDone given) state.instrs = some (moved,
            (CollectedEpisodes.after makeFrame (movesOf entries)).settled) ∧
      Holds (CollectedEpisodes.after makeFrame (movesOf entries)) moved := by
  obtain ⟨moved, hexecute, hholds⟩ := hposition.executes
  have hrest : state.rest = .call call :: state.instrs := by
    simp [RecordedEnv.rest, hcurrent]
  rw [hrest, execute] at hexecute
  cases happly : (frameRecorder n makeFrame panel).apply call
      ((frameRecorder n makeFrame panel).after (.create video) before) with
  | mk outcome next =>
    rw [happly] at hexecute
    cases outcome with
    | error error => cases hexecute
    | ok given => exact ⟨given, next, moved, rfl, hexecute, hholds⟩

theorem Position.not_ended
    (hanswers : Lawful (answerLaw (frameRecorder n makeFrame panel)
      (.create video)) (recorderLog entries)) :
    ¬Ended (recorderLog entries) := by
  have hopened : ∀ left right, recorderLog entries = left ++ right →
      ∀ earlier, ¬CallOpen left earlier .finalize := by
    intro left right hentries earlier hopen
    have hfinalize :
        RecorderCall.finalize ∈ calledCalls (recorderLog entries) := by
      rw [hentries, calledCalls_append, hopen.calledCalls]
      simp
    rw [hposition.calls] at hfinalize
    have hfalse := hposition.running _ hfinalize
    cases hfalse
  intro hended
  rcases hended with ⟨answer, hentry⟩ | ⟨cause, hentry⟩
  · obtain ⟨left, right, hentries, hlaw⟩ := hanswers.of_mem hentry
    obtain ⟨earlier, hopen, _⟩ := hlaw
    exact hopened left _ hentries earlier hopen
  · obtain ⟨left, right, hentries, hlaw⟩ := hanswers.of_mem hentry
    obtain ⟨⟨earlier, hopen⟩, _⟩ := hlaw
    exact hopened left _ hentries earlier hopen

theorem Position.not_raised (happlied : appliedCalls (recorderLog entries) <+:
      calledCalls (recorderLog entries))
    (hserved : Lawful (outcomeLaw (frameRecorder n makeFrame panel)
      (.create video)) (recorderLog entries))
    (hanswers : Lawful (answerLaw (frameRecorder n makeFrame panel)
      (.create video)) (recorderLog entries))
    (hraised : answerLaw (frameRecorder n makeFrame panel) (.create video)
      (recorderLog entries) (.raised call error)) : False := by
  obtain ⟨_, hfailed | hended⟩ := hraised
  · obtain ⟨other, cause, hother⟩ := hfailed
    obtain ⟨left, right, hentries, houtcome⟩ := hserved.of_mem hother
    have hcalls := happlied
    rw [hposition.calls, hentries, appliedCalls_append,
      ← singleton_append, appliedCalls_append] at hcalls
    obtain ⟨rest, hrest⟩ := hcalls
    rw [← append_assoc, append_assoc] at hrest
    have hsplit : before ++ state.current.toList = appliedCalls left ++
        other :: (appliedCalls right ++ rest) := by
      rw [← hrest]
      simp [appliedCalls, RecorderEvent.applied?]
    have hok : ∃ given, ((frameRecorder n makeFrame panel).apply other
        ((frameRecorder n makeFrame panel).after (.create video)
          (appliedCalls left))).1 = .ok given := by
      cases hcurrent : state.current with
      | none =>
        rw [hcurrent, Option.toList_none, append_nil] at hsplit
        exact hposition.answered _ _ _ hsplit
      | some current =>
        rw [hcurrent, Option.toList_some] at hsplit
        rcases eq_nil_or_concat' (appliedCalls right ++ rest) with
          hnil | ⟨init, last, hconcat⟩
        · rw [hnil] at hsplit
          obtain ⟨hsame, hlast⟩ := append_inj' hsplit rfl
          obtain rfl := head_eq_of_cons_eq hlast
          obtain ⟨given, _, _, happly, _⟩ :=
            hposition.executes_current hcurrent
          rw [← hsame, happly]
          exact ⟨given, rfl⟩
        · rw [hconcat, ← cons_append, ← append_assoc] at hsplit
          exact hposition.answered _ _ _ (append_inj' hsplit rfl).1
    obtain ⟨given, hgiven⟩ := hok
    rw [outcomeLaw, hgiven] at houtcome
    cases houtcome
  · exact hposition.not_ended hanswers hended

end

theorem absorb_returned (state : RecordedEnv n O X A σ)
    (call : RecorderCall (RecordedStep O X A)) (answer : Option (RecorderAnswer D)) :
    state.absorb (.returned call answer :
        RecorderEvent _ (RecorderError Empty) _) =
      { state with
        current := none
        episodeDone := (answer.map
          (answeredFlags state.episodeDone)).getD state.episodeDone } := by
  cases answer with
  | none => rfl
  | some given =>
    cases given with
    | changed changed => cases changed <;> rfl
    | _ => rfl

theorem Position.returned
    (hposition : Position makeFrame panel video entries state before)
    (hanswers : Lawful (answerLaw (frameRecorder n makeFrame panel)
      (.create video)) (recorderLog entries))
    (hlaw : answerLaw (frameRecorder n makeFrame panel) (.create video)
      (recorderLog entries) (.returned call answer)) :
    state.current = some call ∧ (∀ given, answer = some given →
        ((frameRecorder n makeFrame panel).apply call
          ((frameRecorder n makeFrame panel).after (.create video)
            before)).1 = .ok given) ∧
      Position makeFrame panel video
        (entries ++ [.recorder (.returned call answer)])
        (state.absorb (.returned call answer :
          RecorderEvent _ (RecorderError Empty) _)) (before ++ [call]) := by
  obtain ⟨left, hopen, hsynchronous, hanswer⟩ := hlaw
  have hcurrent := hposition.opened call left hopen
  have hcalls := hposition.calls
  have hleft : calledCalls left = before := by
    rw [hopen.calledCalls, hcurrent, Option.toList_some] at hcalls
    exact (append_inj' hcalls rfl).1
  rw [hleft] at hanswer
  refine ⟨hcurrent, hanswer, ?_⟩
  obtain ⟨given, next, moved, happly, hexecute, hholds⟩ :=
    hposition.executes_current hcurrent
  have hflags : (answer.map (answeredFlags state.episodeDone)).getD
      state.episodeDone = answeredFlags state.episodeDone given := by
    cases answer with
    | some other =>
      have hother := hanswer other rfl
      rw [happly] at hother
      rw [← Except.ok.inj hother]
      rfl
    | none =>
      cases given with
      | changed changed =>
        exfalso
        have hsync : call.synchronous = true := by
          apply MultiRecorder.changed_synchronous
          exact congrArg Prod.fst happly
        rcases hsynchronous with hsome | hended
        · cases hsome hsync
        · obtain ⟨right, hentries, _⟩ := hopen
          apply hposition.not_ended hanswers
          rw [hentries]
          exact hended.append
      | _ => rfl
  have hrest : RecordedEnv.rest (state.absorb (.returned call answer :
      RecorderEvent _ (RecorderError Empty) _)) = state.instrs := by
    rw [absorb_returned]
    rfl
  have hmoves : movesOf (entries ++ [.recorder (.returned call answer)]) =
      movesOf entries := by
    rw [movesOf_append]
    exact append_nil _
  have hafter : (frameRecorder n makeFrame panel).after (.create video)
      (before ++ [call]) = next := by
    rw [BaseRecorder.after_append, BaseRecorder.after_singleton, happly]
  constructor
  · rw [recorderLog_append, calledCalls_append, hcalls, hcurrent,
      absorb_returned]
    rfl
  · intro other earlier hother
    obtain ⟨right, heq, hright⟩ := hother
    rw [recorderLog_append] at heq
    rcases eq_nil_or_concat' right with rfl | ⟨rest, last, rfl⟩
    · have hlast := (append_inj' heq rfl).2
      cases hlast
    · rw [← cons_append, ← append_assoc] at heq
      have hlast := (append_inj' heq rfl).2
      have hkind := hright last (mem_append_right _ mem_cons_self)
      rw [← head_eq_of_cons_eq hlast] at hkind
      cases hkind
  · rw [hmoves, hrest, hafter, absorb_returned, hflags]
    exact ⟨moved, hexecute, hholds⟩
  · intro earlier other right heq
    rcases eq_nil_or_concat' right with rfl | ⟨rest, last, rfl⟩
    · obtain ⟨rfl, hlast⟩ := append_inj' heq rfl
      obtain rfl := head_eq_of_cons_eq hlast
      rw [happly]
      exact ⟨given, rfl⟩
    · rw [← cons_append, ← append_assoc] at heq
      exact hposition.answered _ _ _ (append_inj' heq rfl).1
  · rw [absorb_returned]
    intro other hother
    apply hposition.running
    rw [hcurrent, Option.toList_some]
    rw [Option.toList_none, append_nil] at hother
    exact hother
  · rw [hmoves, hrest, hafter]
    have hwithin := hposition.within
    rw [show state.rest = .call call :: state.instrs by
      simp [RecordedEnv.rest, hcurrent]] at hwithin
    exact hwithin.next

def trainingLaw (makeFrame : RecordedStep O X A → D)
    (entries : List (RecordingEvent n O X A (RecorderError Empty) D)) :
    RecordingEvent n O X A (RecorderError Empty) D → Prop
  | .recorder (.returned .popCompleted answer) =>
    ∃ moves given, movesOf entries = moves ++ [.popCompleted] ∧
      answer = some given ∧ given.episodes =
        (CollectedEpisodes.after makeFrame moves).trainEpisodes
  | .recorder (.raised _ _) => False
  | _ => True

theorem Position.popped {answer : Option (RecorderAnswer D)}
    (hposition : Position makeFrame panel video entries state before)
    (hanswers : Lawful (answerLaw (frameRecorder n makeFrame panel)
      (.create video)) (recorderLog entries))
    (hlaw : answerLaw (frameRecorder n makeFrame panel) (.create video)
      (recorderLog entries) (.returned .popCompleted answer)) :
    trainingLaw makeFrame entries
      (.recorder (.returned .popCompleted answer)) := by
  obtain ⟨hcurrent, hanswer, _⟩ := hposition.returned hanswers hlaw
  have hsome : answer.isSome := by
    obtain ⟨left, hopen, hsynchronous, _⟩ := hlaw
    rcases hsynchronous with hsome | hended
    · exact hsome rfl
    · exfalso
      obtain ⟨right, hentries, _⟩ := hopen
      apply hposition.not_ended hanswers
      rw [hentries]
      exact hended.append
  obtain ⟨given, rfl⟩ := Option.isSome_iff_exists.mp hsome
  have hrest : state.rest = .call .popCompleted :: state.instrs := by
    simp [RecordedEnv.rest, hcurrent]
  rcases hposition.within.last with hnil | ⟨moves, move, done, hmoves, hin, hold⟩
  · simp [hrest] at hnil
  · rw [hrest] at hin
    obtain ⟨rfl, hdone⟩ := RecordingMove.eq_popCompleted hin
    have hholds := hold hdone
    obtain ⟨popped, after, happly, hepisodes, _, hmirrors⟩ :=
      hholds.mirrors.popCompleted makeFrame
    obtain ⟨_, hcall, _⟩ :=
      hholds.call makeFrame panel .popCompleted happly hmirrors
    have hgiven := hanswer given rfl
    rw [hcall] at hgiven
    refine ⟨moves, given, hmoves, rfl, ?_⟩
    rw [← Except.ok.inj hgiven]
    exact hepisodes

theorem Position.absorbAll
    (output : List (RecorderEvent (RecordedStep O X A) (RecorderError Empty)
      (RecorderAnswer D)))
    (hposition : Position makeFrame panel video entries state before)
    (happlied : appliedCalls (recorderLog entries ++ output) <+:
      calledCalls (recorderLog entries ++ output))
    (houtcomes : Lawful (outcomeLaw (frameRecorder n makeFrame panel)
      (.create video)) (recorderLog entries ++ output))
    (hanswers : Lawful (answerLaw (frameRecorder n makeFrame panel)
      (.create video)) (recorderLog entries ++ output))
    (hcalled : calledCalls output = [] ∨ state.current = none ∧
      ∃ call instrs, calledCalls output = [call] ∧
        state.instrs = .call call :: instrs)
    (htraining : Lawful (trainingLaw makeFrame) entries) :
    ∃ after, Position makeFrame panel video (entries ++ output.map .recorder)
        (output.foldl RecordedEnv.absorb state) after ∧
      Lawful (trainingLaw makeFrame) (entries ++ output.map .recorder) := by
  induction output generalizing entries state before with
  | nil =>
    rw [map_nil, append_nil]
    exact ⟨before, hposition, htraining⟩
  | cons event output ih =>
    have hlaw := hanswers (recorderLog entries) event output rfl
    have hlog : ∀ event, recorderLog (entries ++ [.recorder event]) =
        recorderLog entries ++ [event] := by
      intro event
      rw [recorderLog_append]
      rfl
    rw [append_cons] at happlied houtcomes hanswers
    rw [map_cons, append_cons, foldl_cons]
    rw [← hlog] at happlied houtcomes hanswers
    cases event with
    | called call =>
      rcases hcalled with hnil | ⟨hcurrent, other, instrs, hone, hinstrs⟩
      · cases hnil
      · obtain ⟨rfl, hrest⟩ := List.cons.inj
          (show call :: calledCalls output = [other] from hone)
        exact ih (hposition.called hcurrent hinstrs) happlied houtcomes
          hanswers (.inl hrest) (htraining.snoc trivial)
    | applied call outcome =>
      exact ih hposition.applied happlied houtcomes hanswers hcalled
        (htraining.snoc trivial)
    | returned call answer =>
      have hprior : Lawful (answerLaw (frameRecorder n makeFrame panel)
          (.create video)) (recorderLog entries) := by
        rw [hlog, append_assoc] at hanswers
        exact hanswers.left
      obtain ⟨hcurrent, _, hnext⟩ := hposition.returned hprior hlaw
      have hrest : calledCalls output = [] := by
        rcases hcalled with hnil | ⟨hnone, _⟩
        · exact hnil
        · simp [hcurrent] at hnone
      refine ih hnext happlied houtcomes hanswers (.inl hrest)
        (htraining.snoc ?_)
      cases call with
      | popCompleted => exact hposition.popped hprior hlaw
      | _ => trivial
    | raised call error =>
      exfalso
      have hprior : Lawful (answerLaw (frameRecorder n makeFrame panel)
          (.create video)) (recorderLog entries) := by
        rw [hlog, append_assoc] at hanswers
        exact hanswers.left
      have hpriorOutcomes : Lawful (outcomeLaw
          (frameRecorder n makeFrame panel) (.create video))
          (recorderLog entries) := by
        rw [hlog, append_assoc] at houtcomes
        exact houtcomes.left
      have hnone : calledCalls (RecorderEvent.raised call error ::
          output) = [] := by
        rcases hcalled with hnil | ⟨hnone, _⟩
        · exact hnil
        · obtain ⟨⟨left, hopen⟩, _⟩ := hlaw
          rw [hposition.opened call left hopen] at hnone
          cases hnone
      apply hposition.not_raised _ hpriorOutcomes hprior hlaw
      rw [hlog, ← append_cons, appliedCalls_append,
        calledCalls_append, hnone, append_nil] at happlied
      exact (prefix_append _ _).trans happlied

/-! ## The steps of the environment -/

theorem Position.same {other : RecordedEnv n O X A σ}
    (hposition : Position makeFrame panel video entries state before)
    (hcurrent : other.current = state.current)
    (hinstrs : other.instrs = state.instrs)
    (hflags : other.episodeDone = state.episodeDone)
    (hlog : recorderLog more = []) (hmoves : movesOf more = []) :
    Position makeFrame panel video (entries ++ more) other before := by
  have hrest : other.rest = state.rest := by
    rw [RecordedEnv.rest, RecordedEnv.rest, hcurrent, hinstrs]
  have hlogs : recorderLog (entries ++ more) = recorderLog entries := by
    rw [recorderLog_append, hlog, append_nil]
  have hall : movesOf (entries ++ more) = movesOf entries := by
    rw [movesOf_append, hmoves, append_nil]
  constructor
  · rw [hlogs, hcurrent]
    exact hposition.calls
  · rw [hlogs, hcurrent]
    exact hposition.opened
  · rw [hall, hrest, hflags]
    exact hposition.executes
  · exact hposition.answered
  · rw [hcurrent]
    exact hposition.running
  · rw [hall, hrest]
    exact hposition.within

theorem Position.write {envId : Fin n} {done : Bool}
    {instrs : List (RecordingInstr n O X A)}
    (hposition : Position makeFrame panel video entries state before)
    (hcurrent : state.current = none)
    (hinstrs : state.instrs = .episodeDone envId done :: instrs) :
    Position makeFrame panel video (entries ++ []) { state with
      instrs := instrs
      episodeDone := Function.update state.episodeDone envId done }
      before := by
  have hrest : state.rest = .episodeDone envId done :: instrs := by
    simp [RecordedEnv.rest, hcurrent, hinstrs]
  have hnext : RecordedEnv.rest { state with
      instrs := instrs
      episodeDone := Function.update state.episodeDone envId done } =
        instrs := by
    simp [RecordedEnv.rest, hcurrent]
  have hexecutes := hposition.executes
  have hwithin := hposition.within
  rw [hrest] at hexecutes hwithin
  rw [append_nil]
  constructor
  · exact hposition.calls
  · exact hposition.opened
  · rw [hnext]
    exact hexecutes
  · exact hposition.answered
  · exact hposition.running
  · rw [hnext]
    exact hwithin.next

theorem Position.move {move : RecordingMove n O X A}
    {moves : List (RecordingMove n O X A)}
    (hposition : Position makeFrame panel video entries state before)
    (hcurrent : state.current = none) (hinstrs : state.instrs = [])
    (hallowed :
      (CollectedEpisodes.after makeFrame (movesOf entries)).Allows move) :
    Position makeFrame panel video (entries ++ [.began move]) { state with
      moves := moves
      instrs := move.instrs state.episodeDone } before := by
  have hrest : state.rest = [] := by
    simp [RecordedEnv.rest, hcurrent, hinstrs]
  have hnext : RecordedEnv.rest { state with
      moves := moves
      instrs := move.instrs state.episodeDone } =
        move.instrs state.episodeDone := by
    simp [RecordedEnv.rest, hcurrent]
  have hlogs : recorderLog (entries ++ [.began move]) =
      recorderLog entries := by
    rw [recorderLog_append]
    exact append_nil _
  have hmoves : movesOf (entries ++ [.began move]) =
      movesOf entries ++ [move] := by
    rw [movesOf_append]
    rfl
  obtain ⟨moved, hexecute, hholds⟩ := hposition.executes
  rw [hrest] at hexecute
  obtain ⟨rfl, hflags⟩ := Prod.mk.inj (Option.some.inj hexecute)
  have hmove := execute_move makeFrame panel hholds hallowed
  constructor
  · rw [hlogs]
    exact hposition.calls
  · rw [hlogs]
    exact hposition.opened
  · rw [hmoves, hnext, CollectedEpisodes.after_snoc]
    change ∃ moved, execute _ _ state.episodeDone _ = _ ∧ _
    rw [show state.episodeDone = _ from hflags]
    exact hmove
  · exact hposition.answered
  · exact hposition.running
  · rw [hnext]
    refine ⟨.inr ⟨movesOf entries, move, [], hmoves, ?_, fun _ => hholds⟩⟩
    rw [nil_append, show state.episodeDone = _ from hflags]

end Positions

/-! ## Runs -/

section Runs

variable {E : Type} {makeFrame : RecordedStep O X A → D}
  {panel : RecordedStep O X A → Option I} {video : Bool}
  {callable : CallableRecorder (RecordedStep O X A) (RecorderError Empty)
    (RecorderAnswer D) σ ι} {initial : σ}

def Allowed (makeFrame : RecordedStep O X A → D)
    (entries : List (RecordingEvent n O X A E D)) : Prop :=
  Lawful (fun moves move =>
    (CollectedEpisodes.after makeFrame moves).Allows move) (movesOf entries)

/-- The log of the recorder is that of a run of it, and allowed moves leave the
environment at a position. -/
structure Recording (makeFrame : RecordedStep O X A → D)
    (panel : RecordedStep O X A → Option I) (video : Bool)
    (callable : CallableRecorder (RecordedStep O X A) (RecorderError Empty)
      (RecorderAnswer D) σ ι) (initial : σ)
    (entries : List (RecordingEvent n O X A (RecorderError Empty) D))
    (state : RecordedEnv n O X A σ) : Prop where
  run : ∃ events, Run callable.machine initial events state.recorder ∧
    Transition.log events = recorderLog entries
  position : Allowed makeFrame entries →
    ∃ before, Position makeFrame panel video entries state before
  training : Allowed makeFrame entries → Lawful (trainingLaw makeFrame) entries

theorem absorb_recorder (events : List (RecorderEvent (RecordedStep O X A)
      (RecorderError Empty) (RecorderAnswer D)))
    (state : RecordedEnv n O X A σ) :
    (events.foldl RecordedEnv.absorb state).recorder = state.recorder := by
  induction events generalizing state with
  | nil => rfl
  | cons event events ih =>
    rw [foldl_cons, ih]
    cases event with
    | returned call answer => rw [absorb_returned]
    | _ => rfl

theorem recording_start : Recording makeFrame panel video callable initial []
      (.start initial : RecordedEnv n O X A σ) := by
  refine ⟨⟨[], .nil, rfl⟩, fun _ => ⟨[], ?_⟩, fun _ => lawful_nil⟩
  constructor
  · rfl
  · rintro call left ⟨right, heq, _⟩
    cases left <;> cases heq
  · exact ⟨_, rfl, Holds.create video⟩
  · intro left call right heq
    cases left <;> cases heq
  · exact nofun
  · exact ⟨.inl rfl⟩

theorem Allowed.left (hallowed : Allowed makeFrame (entries ++ more)) :
    Allowed makeFrame entries := by
  rw [Allowed, movesOf, filterMap_append] at hallowed
  exact Lawful.left hallowed

variable {next : RecordedEnv n O X A σ}

theorem Recording.recorderStep (hserves : Serves
      (frameRecorder n makeFrame panel) (.create video) callable initial)
    (hrecording : Recording makeFrame panel video callable initial entries
      state) (hstep : state.recorderStep callable label = some (output, next))
    (hcalled : ∀ events recorder,
      callable.machine.step state.recorder label = some (events, recorder) →
        calledCalls events = [] ∨ state.current = none ∧
          ∃ call instrs, calledCalls events = [call] ∧
            state.instrs = .call call :: instrs) :
    Recording makeFrame panel video callable initial (entries ++ output)
      next := by
  rw [RecordedEnv.recorderStep] at hstep
  obtain ⟨⟨events, recorder⟩, hmachine, hresult⟩ :=
    Option.map_eq_some_iff.mp hstep
  cases hresult
  obtain ⟨prior, hrun, hlog⟩ := hrecording.run
  have hlonger : Run callable.machine initial
      (prior ++ [⟨state.recorder, label, events, recorder⟩]) recorder :=
    Run.snoc hrun hmachine
  have hserved := hserves.log _ _ hlonger
  rw [log_append, log_singleton, hlog] at hserved
  have hrecorder : recorderLog (entries ++ events.map .recorder) =
      recorderLog entries ++ events := by
    rw [recorderLog_append, recorderLog, recorderLog, filterMap_map]
    congr 1
    exact filterMap_some
  have hposition : Allowed makeFrame entries → ∃ after,
      Position makeFrame panel video (entries ++ events.map .recorder)
          (events.foldl RecordedEnv.absorb
            { state with recorder := recorder }) after ∧
        Lawful (trainingLaw makeFrame) (entries ++ events.map .recorder) := by
    intro hallowed
    obtain ⟨before, hposition⟩ := hrecording.position hallowed
    have hsame : Position makeFrame panel video (entries ++ [])
        { state with recorder := recorder } before :=
      hposition.same rfl rfl rfl rfl rfl
    rw [append_nil] at hsame
    exact hsame.absorbAll events hserved.applied hserved.outcomes
      hserved.answers (hcalled events recorder hmachine)
      (hrecording.training hallowed)
  refine ⟨⟨prior ++ [⟨state.recorder, label, events, recorder⟩], ?_, ?_⟩,
    ?_, ?_⟩
  · rw [absorb_recorder]
    exact hlonger
  · rw [log_append, log_singleton, hlog, hrecorder]
  · intro hallowed
    obtain ⟨after, hafter, _⟩ := hposition hallowed.left
    exact ⟨after, hafter⟩
  · intro hallowed
    obtain ⟨_, _, htraining⟩ := hposition hallowed.left
    exact htraining

theorem Recording.quiet
    (hrecording : Recording makeFrame panel video callable initial entries
      state) (hrecorder : next.recorder = state.recorder)
    (hlog : recorderLog more = [])
    (hposition : Allowed makeFrame (entries ++ more) →
      ∀ before, Position makeFrame panel video entries state before →
        Position makeFrame panel video (entries ++ more) next before) :
    Recording makeFrame panel video callable initial (entries ++ more)
      next := by
  constructor
  · obtain ⟨events, hrun, hevents⟩ := hrecording.run
    refine ⟨events, ?_, ?_⟩
    · rw [hrecorder]
      exact hrun
    · rw [recorderLog_append, hlog, append_nil]
      exact hevents
  · intro hallowed
    obtain ⟨before, hbefore⟩ := hrecording.position hallowed.left
    exact ⟨before, hposition hallowed before hbefore⟩
  · intro hallowed
    apply (hrecording.training hallowed.left).append
    intro left entry hentry
    cases entry with
    | recorder event =>
      have hmember : event ∈ recorderLog more :=
        mem_filterMap.mpr ⟨_, hentry, rfl⟩
      simp [hlog] at hmember
    | _ => trivial

section

variable
  (hserves : Serves (frameRecorder n makeFrame panel) (.create video) callable initial)

include hserves

theorem Recording.step
    (hrecording : Recording makeFrame panel video callable initial entries
      state) (hstep : state.step config callable label = some (output, next)) :
    Recording makeFrame panel video callable initial (entries ++ output)
      next := by
  cases label with
  | call call =>
    simp only [RecordedEnv.step] at hstep
    split_ifs at hstep
    cases hstep
    refine hrecording.quiet rfl rfl ?_
    intro _ before hposition
    exact hposition.same rfl rfl rfl rfl rfl
  | move =>
    cases hmoves : state.moves with
    | nil => simp [RecordedEnv.step, hmoves] at hstep
    | cons move moves =>
      cases hinstrs : state.instrs with
      | cons instr instrs =>
        simp [RecordedEnv.step, hmoves, hinstrs] at hstep
      | nil =>
        cases hcurrent : state.current with
        | some call =>
          simp [RecordedEnv.step, hmoves, hinstrs, hcurrent] at hstep
        | none =>
          simp only [RecordedEnv.step, hmoves, hinstrs, hcurrent,
            Option.some.injEq] at hstep
          cases hstep
          rw [← hcurrent]
          refine hrecording.quiet rfl rfl ?_
          intro hallowed before hposition
          rw [Allowed, movesOf_append] at hallowed
          exact hposition.move hcurrent hinstrs hallowed.last
  | write =>
    cases hinstrs : state.instrs with
    | nil => simp [RecordedEnv.step, hinstrs] at hstep
    | cons instr instrs =>
      cases instr with
      | call call => simp [RecordedEnv.step, hinstrs] at hstep
      | episodeDone envId done =>
        cases hcurrent : state.current with
        | some call =>
          simp [RecordedEnv.step, hinstrs, hcurrent] at hstep
        | none =>
          simp only [RecordedEnv.step, hinstrs, hcurrent,
            Option.some.injEq] at hstep
          cases hstep
          rw [← hcurrent]
          refine hrecording.quiet rfl rfl ?_
          intro _ before hposition
          exact hposition.write hcurrent hinstrs
  | invoke =>
    cases hinstrs : state.instrs with
    | nil => simp [RecordedEnv.step, hinstrs] at hstep
    | cons instr instrs =>
      cases instr with
      | episodeDone envId done =>
        simp [RecordedEnv.step, hinstrs] at hstep
      | call call =>
        cases hcurrent : state.current with
        | some other =>
          simp [RecordedEnv.step, hinstrs, hcurrent] at hstep
        | none =>
          simp only [RecordedEnv.step, hinstrs, hcurrent] at hstep
          apply hrecording.recorderStep hserves hstep
          intro events recorder hmachine
          right
          exact ⟨hcurrent, call, instrs,
            hserves.called _ _ _ _ hmachine, hinstrs⟩
  | recorder label =>
    simp only [RecordedEnv.step] at hstep
    split_ifs at hstep with hcall
    apply hrecording.recorderStep hserves hstep
    intro events recorder hmachine
    left
    exact hserves.silent _ _ _ _ ((Bool.not_eq_true _).mp hcall) hmachine

theorem recording_run
    {events : List (Event (RecordedEnv n O X A σ) (RecordingLabel n O X A ι)
      (List (RecordingEvent n O X A (RecorderError Empty) D)))}
    {final : RecordedEnv n O X A σ}
    (hrun : Run (recordingMachine config callable) (.start initial) events
      final) :
    Recording makeFrame panel video callable initial (Transition.log events)
      final := by
  apply hrun.log_invariant (fun _ _ => True)
    (Recording makeFrame panel video callable initial)
  · intro entries state label output next hrecording _ hstep
    exact hrecording.step hserves hstep
  · intro _ _
    trivial
  · exact recording_start

end

end Runs

end VerlVla
