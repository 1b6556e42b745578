import VerlVla.ResetSafety

/-!
# Ticks that are executed

A control tick steps an environment unless its episode ended before, or an
operator took the environment over earlier in the chunk and does not go on.
The flags of a chunk are read off its feedback.
-/

namespace VerlVla
namespace BaseEnv

variable {n : ℕ} {A O : Type}

/-! ## Ticks of a chunk -/

def stepped (calls : List (BackendCall n A O)) (e : Fin n) : Bool :=
  calls.any fun call =>
    match call with
    | .step envIds _ _ _ _ => envIds e
    | .reset _ => false

/-- The polls of a tick that some operator answers with an action. -/
def reachedPolls (env : EnvState n A O) (tick : TickState n A) :
    List (Poll n A O) → List (Poll n A O)
  | [] => []
  | poll :: polls =>
    match pollTeleops env tick poll with
    | .ok (.polling env tick) => poll :: reachedPolls env tick polls
    | .ok (.finished _ _) => []
    | .error _ => []

/-- Some of these polls has an action of the operator. -/
def asked (polls : List (Poll n A O)) (e : Fin n) : Bool :=
  polls.any fun poll => (poll.commands e).intervention.isSome

structure TickRecord (n : ℕ) (A O : Type) where
  before : EnvState n A O
  input : TickInput n A O
  chunkStarted : Bool
  after : EnvState n A O
  feedback : StepFeedback n

namespace TickRecord

variable (record : TickRecord n A O) (e : Fin n)

/-- The simulator was called for the environment in this tick. -/
def executed : Bool :=
  stepped (record.after.calls.drop record.before.calls.length) e

/-- An operator took the environment over earlier in the chunk and does not
act in this tick, although the episode goes on. -/
def leftAlone : Bool :=
  let started := beginTick record.before record.input.action
    record.chunkStarted
  !record.before.done e && started.2.intervenedBeforeStep e &&
    !asked (reachedPolls started.1 started.2 record.input.polls) e

end TickRecord

def tickRecords (env : EnvState n A O) (chunkStarted : Bool) :
    List (TickInput n A O) → List (TickRecord n A O)
  | [] => []
  | input :: inputs =>
    match executeActionStep env input chunkStarted with
    | .ok next =>
      ⟨env, input, chunkStarted, next.1, next.2⟩ ::
        tickRecords next.1 false inputs
    | .error _ => []

/-! ## One environment in one tick -/

structure OpenTick (start : List (BackendCall n A O)) (before : Bool)
    (e : Fin n) (env : EnvState n A O) (tick : TickState n A)
    (answered : Bool) : Prop where
  calls : ∃ new, env.calls = start ++ new ∧
    (tick.done e = true → stepped new e = true) ∧
      (stepped new e = true → tick.isIntervened e = true)
  intervened : tick.isIntervened e = answered
  intervenedBefore : tick.intervenedBeforeStep e = before
  notDone : tick.doneBeforeStep e = false
  envNotDone : env.done e = false

structure RestingTick (start : List (BackendCall n A O)) (e : Fin n)
    (env : EnvState n A O) (tick : TickState n A) : Prop where
  calls : ∃ new, env.calls = start ++ new ∧ stepped new e = false
  done : tick.done e = true
  doneBefore : tick.doneBeforeStep e = true
  envDone : env.done e = true

def StepFeedback.flagged (feedback : StepFeedback n) (e : Fin n) : Bool :=
  feedback.terminated e || feedback.truncated e

structure TickEnds (start : List (BackendCall n A O)) (e : Fin n)
    (doneBefore ran : Bool) (env : EnvState n A O)
    (feedback : StepFeedback n) : Prop where
  calls : ∃ new, env.calls = start ++ new ∧ stepped new e = ran
  done : env.done e = (doneBefore || feedback.flagged e)
  silent : doneBefore = true →
    feedback.flagged e = false ∧ feedback.reward e = 0

section Tick

variable {start : List (BackendCall n A O)} {before answered : Bool}
  {e : Fin n} {env : EnvState n A O} {tick : TickState n A}
  {reply : Fin n → StepRow O}

theorem stepped_append (first second : List (BackendCall n A O)) :
    stepped (first ++ second) e = (stepped first e || stepped second e) :=
  List.any_append

theorem OpenTick.done_of (hopen : OpenTick start before e env tick answered)
    (hfree : tick.isIntervened e = false) : tick.done e = false := by
  obtain ⟨new, -, hdone, hstepped⟩ := hopen.calls
  by_contra hended
  have hcalled := hstepped (hdone (by simpa using hended))
  simp [hfree] at hcalled

theorem stepSelected_lane
    (hstep : stepSelected env tick executeMask isIntervention reply =
      .ok next) :
    (∃ new, next.1.calls = env.calls ++ new ∧ stepped new e = executeMask e ∧
      (next.2.done e = true → tick.done e = true ∨ executeMask e = true)) ∧
      (tick.done e = true → next.2.done e = true) ∧
      next.1.done = env.done ∧ next.2.isIntervened = tick.isIntervened ∧
      next.2.intervenedBeforeStep = tick.intervenedBeforeStep ∧
      next.2.doneBeforeStep = tick.doneBeforeStep := by
  unfold stepSelected at hstep
  by_cases hany : executeMask.any
  · rw [if_pos hany] at hstep
    obtain ⟨hnext, htick⟩ := maskStep_eq_ok hstep
    rw [hnext, htick]
    refine ⟨⟨_, rfl, ?_, ?_⟩, ?_, rfl, rfl, rfl, rfl⟩
    · simp [stepped]
    · intro hdone
      simp only [Bool.or_eq_true, Bool.and_eq_true] at hdone
      cases hdone with
      | inl hbefore => exact .inl hbefore
      | inr hrow => exact .inr hrow.1
    · intro hdone
      simp [hdone]
  · rw [if_neg hany] at hstep
    cases hstep
    have hnone : executeMask e = false := by
      by_contra hexecuted
      exact hany (any_iff.mpr ⟨e, by simpa using hexecuted⟩)
    refine ⟨⟨[], (List.append_nil _).symm, hnone.symm, ?_⟩, ?_, rfl, rfl,
      rfl, rfl⟩
    · exact .inl
    · exact id

theorem OpenTick.readCommands
    (hopen : OpenTick start before e env tick answered)
    (poll : Poll n A O) :
    OpenTick start before e env (tick.readCommands poll) answered :=
  ⟨hopen.calls, hopen.intervened, hopen.intervenedBefore, hopen.notDone,
    hopen.envNotDone⟩

theorem OpenTick.polling (hopen : OpenTick start before e env tick answered)
    (hpoll : pollTeleops env tick poll = .ok (.polling nextEnv nextTick)) :
    OpenTick start before e nextEnv nextTick
      (answered || (poll.commands e).intervention.isSome) := by
  have hread := hopen.readCommands poll
  unfold pollTeleops at hpoll
  dsimp only at hpoll
  split_ifs at hpoll
  · obtain ⟨next, hnext, hsame⟩ := map_eq_ok.mp hpoll
    cases hsame
    obtain ⟨selected, hstep, hpure⟩ := bind_eq_ok.mp hnext
    cases hpure
    obtain ⟨⟨called, hcalls, hcalled, hended⟩, -, henv, hintervened, hbefore,
      hdoneBefore⟩ := stepSelected_lane (e := e) hstep
    obtain ⟨new, hnew, hdone, hstepped⟩ := hread.calls
    have hactive : (selected.2.takeOver poll
        ((tick.readCommands poll).interventionMask poll)).isIntervened e =
          (answered || (poll.commands e).intervention.isSome) := by
      show (selected.2.isIntervened e || _) = _
      rw [hintervened, hread.intervened]
      cases hanswered : answered with
      | true => rfl
      | false =>
        have hfree : (tick.readCommands poll).isIntervened e = false := by
          rw [hread.intervened, hanswered]
        have hlive := hread.done_of hfree
        have hstill : selected.2.done e = false := by
          by_contra hnow
          cases hended (by simpa using hnow) with
          | inl hearlier =>
            simp [hlive] at hearlier
          | inr hmask =>
            simp [hfree] at hmask
        simp [TickState.interventionMask, hlive, hstill]
    constructor
    · refine ⟨new ++ called, ?_, ?_, ?_⟩
      · rw [← List.append_assoc, ← hnew]
        exact hcalls
      · intro hnow
        rw [stepped_append, hcalled, Bool.or_eq_true]
        cases hended hnow with
        | inl hearlier => exact .inl (hdone hearlier)
        | inr hmask => exact .inr hmask
      · intro hnow
        rw [stepped_append, hcalled, Bool.or_eq_true] at hnow
        have htaken : (tick.readCommands poll).isIntervened e = true := by
          cases hnow with
          | inl hearlier => exact hstepped hearlier
          | inr hmask =>
            simp only [Bool.and_eq_true] at hmask
            exact hmask.1
        show (selected.2.isIntervened e || _) = true
        rw [hintervened, htaken]
        rfl
    · exact hactive
    · exact (congrFun hbefore e).trans hread.intervenedBefore
    · exact (congrFun hdoneBefore e).trans hread.notDone
    · exact (congrFun henv e).trans hread.envNotDone
  · obtain ⟨next, hnext, hsame⟩ := map_eq_ok.mp hpoll
    cases hsame

theorem publishStep_eq_ok (hpublish : publishStep env tick = .ok next) :
    ∃ rows : Fin n → StepRow O, next.1.calls = env.calls ∧
      next.1.done e = (env.done e || (rows e).done) ∧
      next.2 = stepFeedback rows tick.doneBeforeStep := by
  unfold publishStep at hpublish
  cases hrows : env.mergedStepResult with
  | none =>
    simp [hrows] at hpublish
  | some rows =>
    rw [hrows] at hpublish
    cases hpublish
    exact ⟨rows, rfl, rfl, rfl⟩

theorem stepFeedback_flagged (hlive : mask e = false) :
    (stepFeedback rows mask).flagged e = (rows e).done := by
  simp [StepFeedback.flagged, stepFeedback, StepRow.done, hlive]

theorem stepFeedback_silent (hdone : mask e = true) :
    (stepFeedback rows mask).flagged e = false ∧
      (stepFeedback rows mask).reward e = 0 := by
  simp [StepFeedback.flagged, stepFeedback, hdone]

theorem OpenTick.finish (hopen : OpenTick start before e env tick answered)
    (hfinish : finishTick env tick reply = .ok next) :
    TickEnds start e false (!before || answered) next.1 next.2 := by
  obtain ⟨selected, hstep, hpublish⟩ := bind_eq_ok.mp hfinish
  obtain ⟨⟨called, hcalls, hcalled, -⟩, -, henv, -, -, hdoneBefore⟩ :=
    stepSelected_lane (e := e) hstep
  obtain ⟨rows, hpublished, hdone, hfeedback⟩ :=
    publishStep_eq_ok (e := e) hpublish
  obtain ⟨new, hnew, hended, hstepped⟩ := hopen.calls
  have hflagged : next.2.flagged e = (rows e).done := by
    rw [hfeedback]
    exact stepFeedback_flagged ((congrFun hdoneBefore e).trans hopen.notDone)
  constructor
  · refine ⟨new ++ called, ?_, ?_⟩
    · rw [hpublished, hcalls, hnew, List.append_assoc]
    · rw [stepped_append, hcalled]
      unfold TickState.executeMask
      rw [hopen.intervened, hopen.intervenedBefore]
      have htaken := hopen.intervened
      cases hnow : tick.done e with
      | true =>
        have hcalledBefore := hended hnow
        rw [hstepped hcalledBefore] at htaken
        rw [hcalledBefore, ← htaken]
        simp
      | false =>
        cases hearlier : stepped new e with
        | false => rfl
        | true =>
          rw [hstepped hearlier] at htaken
          rw [← htaken]
          simp
  · rw [hdone, henv, hopen.envNotDone, hflagged]
  · exact nofun

theorem OpenTick.stepWithTeleop
    (hopen : OpenTick start before e env tick answered)
    (hloop : stepWithTeleop env tick reply polls = .ok next) :
    TickEnds start e false
      (!before || (answered || asked (reachedPolls env tick polls) e))
      next.1 next.2 := by
  induction polls generalizing env tick answered with
  | nil =>
    have hends := hopen.finish hloop
    rw [reachedPolls, asked, List.any_nil, Bool.or_false]
    exact hends
  | cons poll polls ih =>
    unfold BaseEnv.stepWithTeleop at hloop
    unfold reachedPolls
    cases hpoll : pollTeleops env tick poll with
    | error raised =>
      simp [hpoll] at hloop
    | ok outcome =>
      rw [hpoll] at hloop
      cases outcome with
      | polling nextEnv nextTick =>
        have hends := ih (hopen.polling hpoll) hloop
        rw [Bool.or_assoc] at hends
        exact hends
      | finished nextEnv feedback =>
        cases hloop
        have hread := hopen.readCommands poll
        unfold pollTeleops at hpoll
        dsimp only at hpoll
        split_ifs at hpoll
        · obtain ⟨_, _, hsame⟩ := map_eq_ok.mp hpoll
          cases hsame
        · obtain ⟨finished, hfinish, hsame⟩ := map_eq_ok.mp hpoll
          cases hsame
          have hends := hread.finish hfinish
          dsimp only
          rw [asked, List.any_nil, Bool.or_false]
          exact hends

theorem RestingTick.polling (hrest : RestingTick start e env tick)
    (hpoll : pollTeleops env tick poll = .ok (.polling nextEnv nextTick)) :
    RestingTick start e nextEnv nextTick := by
  unfold pollTeleops at hpoll
  dsimp only at hpoll
  split_ifs at hpoll
  · obtain ⟨next, hnext, hsame⟩ := map_eq_ok.mp hpoll
    cases hsame
    obtain ⟨selected, hstep, hpure⟩ := bind_eq_ok.mp hnext
    cases hpure
    obtain ⟨⟨called, hcalls, hcalled, -⟩, hkept, henv, -, -, hdoneBefore⟩ :=
      stepSelected_lane (e := e) hstep
    obtain ⟨new, hnew, hnone⟩ := hrest.calls
    have hdone : (tick.readCommands poll).done e = true := hrest.done
    constructor
    · refine ⟨new ++ called, ?_, ?_⟩
      · rw [← List.append_assoc, ← hnew]
        exact hcalls
      · rw [stepped_append, hcalled, hnone]
        simp [TickState.interventionMask, hdone]
    · exact hkept hdone
    · exact (congrFun hdoneBefore e).trans hrest.doneBefore
    · exact (congrFun henv e).trans hrest.envDone
  · obtain ⟨_, _, hsame⟩ := map_eq_ok.mp hpoll
    cases hsame

theorem RestingTick.finish (hrest : RestingTick start e env tick)
    (hfinish : finishTick env tick reply = .ok next) :
    TickEnds start e true false next.1 next.2 := by
  obtain ⟨selected, hstep, hpublish⟩ := bind_eq_ok.mp hfinish
  obtain ⟨⟨called, hcalls, hcalled, -⟩, -, henv, -, -, hdoneBefore⟩ :=
    stepSelected_lane (e := e) hstep
  obtain ⟨rows, hpublished, hdone, hfeedback⟩ :=
    publishStep_eq_ok (e := e) hpublish
  obtain ⟨new, hnew, hnone⟩ := hrest.calls
  constructor
  · refine ⟨new ++ called, ?_, ?_⟩
    · rw [hpublished, hcalls, hnew, List.append_assoc]
    · rw [stepped_append, hcalled, hnone]
      simp [TickState.executeMask, hrest.done]
  · rw [hdone, henv, hrest.envDone]
    rfl
  · intro _
    rw [hfeedback]
    exact stepFeedback_silent ((congrFun hdoneBefore e).trans hrest.doneBefore)

theorem RestingTick.stepWithTeleop (hrest : RestingTick start e env tick)
    (hloop : stepWithTeleop env tick reply polls = .ok next) :
    TickEnds start e true false next.1 next.2 := by
  induction polls generalizing env tick with
  | nil => exact hrest.finish hloop
  | cons poll polls ih =>
    unfold BaseEnv.stepWithTeleop at hloop
    cases hpoll : pollTeleops env tick poll with
    | error raised =>
      simp [hpoll] at hloop
    | ok outcome =>
      rw [hpoll] at hloop
      cases outcome with
      | polling nextEnv nextTick => exact ih (hrest.polling hpoll) hloop
      | finished nextEnv feedback =>
        cases hloop
        have hread : RestingTick start e env (tick.readCommands poll) :=
          ⟨hrest.calls, hrest.done, hrest.doneBefore, hrest.envDone⟩
        unfold pollTeleops at hpoll
        dsimp only at hpoll
        split_ifs at hpoll
        · obtain ⟨_, _, hsame⟩ := map_eq_ok.mp hpoll
          cases hsame
        · obtain ⟨finished, hfinish, hsame⟩ := map_eq_ok.mp hpoll
          cases hsame
          exact hread.finish hfinish

end Tick

/-! ## One environment in a chunk -/

section Chunk

variable {e : Fin n} {env : EnvState n A O}

/-- The environment is not stepped exactly if it was done before or is left
alone. -/
theorem executeActionStep_ends
    (hstep : executeActionStep env input chunkStarted = .ok next) :
    TickEnds env.calls e (env.done e) (!env.done e && !(TickRecord.leftAlone
        ⟨env, input, chunkStarted, next.1, next.2⟩ e)) next.1 next.2 := by
  unfold executeActionStep at hstep
  unfold TickRecord.leftAlone
  dsimp only
  cases hdone : env.done e with
  | true =>
    have hrest : RestingTick env.calls e
        (beginTick env input.action chunkStarted).1
        (beginTick env input.action chunkStarted).2 :=
      ⟨⟨[], (List.append_nil _).symm, rfl⟩, hdone, hdone, hdone⟩
    exact hrest.stepWithTeleop hstep
  | false =>
    have hopen : OpenTick env.calls
        ((beginTick env input.action chunkStarted).2.intervenedBeforeStep
          e) e (beginTick env input.action chunkStarted).1
        (beginTick env input.action chunkStarted).2 false := by
      constructor
      · refine ⟨[], (List.append_nil _).symm, ?_, ?_⟩
        · intro hended
          have hsame : (beginTick env input.action chunkStarted).2.done e =
              env.done e := rfl
          rw [hsame, hdone] at hended
          cases hended
        · exact nofun
      · rfl
      · rfl
      · exact hdone
      · exact hdone
    have hends := hopen.stepWithTeleop hstep
    rw [Bool.false_or] at hends
    rw [Bool.not_false, Bool.true_and, Bool.true_and, Bool.not_and,
      Bool.not_not]
    exact hends

theorem TickRecord.executed_of_ends {record : TickRecord n A O}
    (hends : TickEnds record.before.calls e
      doneBefore ran record.after record.feedback) :
    record.executed e = ran := by
  obtain ⟨new, hnew, hstepped⟩ := hends.calls
  unfold TickRecord.executed
  rw [hnew, List.drop_left]
  exact hstepped

structure ChunkTicks (e : Fin n) (env : EnvState n A O)
    (records : List (TickRecord n A O)) (feedback : List (StepFeedback n))
    (final : EnvState n A O) : Prop where
  reports : records.map TickRecord.feedback = feedback
  done : final.done e = (env.done e || feedback.any (·.flagged e))
  before : ∀ k (record : TickRecord n A O), records[k]? = some record →
    record.before.done e = (env.done e || (feedback.take k).any (·.flagged e))
  executed : ∀ record ∈ records, record.executed e =
    (!record.before.done e && !record.leftAlone e)
  silent : env.done e = true →
    ∀ step ∈ feedback, step.flagged e = false ∧ step.reward e = 0

theorem executeSteps_ticks
    (hsteps : executeSteps env chunkStarted inputs = .ok next) :
    ChunkTicks e env (tickRecords env chunkStarted inputs) next.2
      next.1 := by
  induction inputs generalizing env chunkStarted next with
  | nil =>
    cases hsteps
    constructor
    · rfl
    · simp
    · intro k record hrecord
      simp [tickRecords] at hrecord
    · exact nofun
    · exact nofun
  | cons input inputs ih =>
    obtain ⟨first, hfirst, hrest⟩ := bind_eq_ok.mp hsteps
    obtain ⟨rest, hrestSteps, hpure⟩ := bind_eq_ok.mp hrest
    cases hpure
    have hends := executeActionStep_ends (e := e) hfirst
    have htail := ih hrestSteps
    have hrecords : tickRecords env chunkStarted (input :: inputs) =
        ⟨env, input, chunkStarted, first.1, first.2⟩ ::
          tickRecords first.1 false inputs := by
      rw [tickRecords, hfirst]
    rw [hrecords]
    constructor
    · rw [List.map_cons, htail.reports]
    · rw [htail.done, hends.done, List.any_cons, Bool.or_assoc]
    · intro k record hrecord
      cases k with
      | zero =>
        cases hrecord
        simp
      | succ k =>
        rw [htail.before k record hrecord, hends.done, List.take_succ_cons,
          List.any_cons, Bool.or_assoc]
    · intro record hrecord
      cases List.mem_cons.mp hrecord with
      | inl hsame =>
        rw [hsame]
        exact TickRecord.executed_of_ends hends
      | inr hlater => exact htail.executed record hlater
    · intro hdone step hstep
      have hsilent := hends.silent hdone
      cases List.mem_cons.mp hstep with
      | inl hsame =>
        rw [hsame]
        exact hsilent
      | inr hlater =>
        apply htail.silent _ step hlater
        rw [hends.done, hdone]
        rfl

end Chunk

end BaseEnv
end VerlVla
