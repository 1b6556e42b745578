import VerlVla.ResetRuns
import VerlVla.SerialFeedback

/-!
# Conservation of the feedback of a serial chunk

Within a tick the merged row of an environment is its last step, of this tick
or of an earlier one.  So every tick of a chunk treats the environment in one
of three ways, and its feedback is conserved exactly if nothing is repeated
and nothing is lost.
-/

namespace VerlVla
namespace BaseEnv

variable {n : ℕ} {A O : Type}

theorem report_updateStepResult {e : Fin n} (he : envIds e = true) :
    (updateStepResult merged envIds rows e).report = (rows e).report := by
  unfold updateStepResult
  cases merged with
  | none => rfl
  | some old =>
    simp only [he, if_true]
    rfl

def Reporting (env : EnvState n A O) (e : Fin n) (report : Report) : Prop :=
  ∃ rows, env.mergedStepResult = some rows ∧ (rows e).report = report

section Reports

variable {e : Fin n}

theorem stepReports_append (later : List (BackendCall n A O)) :
    stepReports e (calls ++ later) =
      stepReports e calls ++ stepReports e later :=
  List.filterMap_append

theorem stepReports_stepped (he : executeMask e = true) :
    stepReports e (calls ++
      [.step executeMask action isIntervention reply result]) =
        stepReports e calls ++ [(result e).report] := by
  rw [stepReports_append]
  simp [stepReports, BackendCall.report, he]

theorem stepReports_skipped (he : executeMask e = false) :
    stepReports e (calls ++
      [.step executeMask action isIntervention reply result]) =
        stepReports e calls := by
  rw [stepReports_append]
  simp [stepReports, BackendCall.report, he]

end Reports

/-! ## One environment in one tick -/

/-- One environment during a tick that began in `start`, after the calls that
the tick made. -/
structure LaneTracked (e : Fin n) (start : EnvState n A O)
    (calls : List (BackendCall n A O)) (env : EnvState n A O)
    (tick : TickState n A) : Prop where
  transcript : env.calls = start.calls ++ calls
  flag : env.done e = start.done e
  before : tick.doneBeforeStep e = start.done e
  intervened : tick.intervenedBeforeStep e = start.chunkIntervened e
  done : tick.done e = (start.done e || (stepReports e calls).any Report.done)
  ended : start.done e = true → stepReports e calls = []
  earlier : ∀ report ∈ (stepReports e calls).dropLast, report.done = false
  stepped : ∀ report ∈ (stepReports e calls).getLast?, Reporting env e report
  kept : stepReports e calls = [] → ∀ report, Reporting start e report →
    Reporting env e report

section Tracked

variable {e : Fin n} {start env : EnvState n A O}

theorem LaneTracked.begin (env : EnvState n A O) (action : Fin n → A)
    (chunkStarted : Bool) :
    LaneTracked e (beginTick env action chunkStarted).1 []
      (beginTick env action chunkStarted).1
      (beginTick env action chunkStarted).2 := by
  constructor <;> simp [beginTick, stepReports]

theorem LaneTracked.live (htracked : LaneTracked e start calls env tick)
    (hlive : tick.done e = false) :
    start.done e = false ∧
      ∀ report ∈ stepReports e calls, report.done = false := by
  have hdone := htracked.done
  rw [hlive, eq_comm, Bool.or_eq_false_iff, List.any_eq_false] at hdone
  constructor
  · exact hdone.1
  · intro report hreport
    exact Bool.eq_false_iff.mpr (hdone.2 report hreport)

theorem LaneTracked.step (htracked : LaneTracked e start calls env tick)
    (hmask : ∀ e, executeMask e → tick.done e = false)
    (hstep : maskStep env tick executeMask isIntervention reply =
      .ok (next, nextTick)) :
    LaneTracked e start (calls ++ [.step executeMask tick.action
      isIntervention reply (applyManualStepOverrides tick reply)])
      next nextTick := by
  obtain ⟨rfl, rfl⟩ := maskStep_eq_ok hstep
  cases hexecute : executeMask e with
  | true =>
    obtain ⟨hstart, hearlier⟩ := htracked.live (hmask e hexecute)
    have hlive : (stepReports e calls).any Report.done = false := by
      simpa using hearlier
    constructor
    case transcript => simp [htracked.transcript]
    case flag => exact htracked.flag
    case before => exact htracked.before
    case intervened => exact htracked.intervened
    case done =>
      rw [stepReports_stepped hexecute, List.any_append, hlive]
      simp [htracked.done, hstart, hlive, hexecute, StepRow.report,
        Report.done, StepRow.done]
    case ended =>
      intro hdone
      simp [hstart] at hdone
    case earlier =>
      rw [stepReports_stepped hexecute, List.dropLast_concat]
      exact hearlier
    case stepped =>
      intro report hreport
      rw [stepReports_stepped hexecute, List.getLast?_concat] at hreport
      cases hreport
      exact ⟨_, rfl, report_updateStepResult hexecute⟩
    case kept =>
      intro hnil
      rw [stepReports_stepped hexecute] at hnil
      simp at hnil
  | false =>
    have hkept : ∀ report, Reporting env e report → Reporting { env with
          mergedStepResult := some (updateStepResult env.mergedStepResult
            executeMask (applyManualStepOverrides tick reply)) } e
          report := by
      rintro report ⟨rows, hrows, hreport⟩
      refine ⟨_, rfl, ?_⟩
      rw [hrows, updateStepResult_of_not_mem hexecute]
      exact hreport
    constructor
    case transcript => simp [htracked.transcript]
    case flag => exact htracked.flag
    case before => exact htracked.before
    case intervened => exact htracked.intervened
    case done =>
      rw [stepReports_skipped hexecute]
      simp [htracked.done, hexecute]
    case ended =>
      rw [stepReports_skipped hexecute]
      exact htracked.ended
    case earlier =>
      rw [stepReports_skipped hexecute]
      exact htracked.earlier
    case stepped =>
      rw [stepReports_skipped hexecute]
      intro report hreport
      exact hkept report (htracked.stepped report hreport)
    case kept =>
      rw [stepReports_skipped hexecute]
      intro hnil report hreport
      exact hkept report (htracked.kept hnil report hreport)

theorem laneTracked_invariant (e : Fin n) (start : EnvState n A O) :
    TickInvariant fun env tick =>
      ∃ calls, LaneTracked e start calls env tick where
  step := by
    rintro env tick executeMask isIntervention reply next ⟨calls, htracked⟩
      hmask hstep
    exact ⟨_, htracked.step hmask hstep⟩
  readCommands _ := fun ⟨calls, h⟩ => ⟨calls, h.transcript, h.flag,
    h.before, h.intervened, h.done, h.ended, h.earlier, h.stepped, h.kept⟩
  takeOver _ _ := fun ⟨calls, h⟩ => ⟨calls, h.transcript, h.flag,
    h.before, h.intervened, h.done, h.ended, h.earlier, h.stepped, h.kept⟩

/-- An environment without a step in a tick was not selected by its last
call. -/
theorem LaneTracked.not_selected
    (htracked : LaneTracked e start calls env tick)
    {stepped : EnvState n A O × TickState n A}
    (hstep : stepSelected env tick executeMask isIntervention reply =
      .ok stepped) (hcalled : stepped.1.calls = start.calls ++ called)
    (hidle : stepReports e called = []) :
    executeMask e = false ∧ stepReports e calls = [] := by
  unfold stepSelected at hstep
  split_ifs at hstep with hany
  · obtain ⟨hnext, _⟩ := maskStep_eq_ok hstep
    rw [hnext, htracked.transcript, List.append_assoc] at hcalled
    rw [← List.append_cancel_left hcalled] at hidle
    cases hexecute : executeMask e with
    | true =>
      rw [stepReports_stepped hexecute] at hidle
      simp at hidle
    | false =>
      rw [stepReports_skipped hexecute] at hidle
      exact ⟨rfl, hidle⟩
  · cases hstep
    rw [htracked.transcript] at hcalled
    rw [← List.append_cancel_left hcalled] at hidle
    constructor
    · simp only [Mask.any, List.any_eq_true, not_exists, not_and,
        Bool.not_eq_true] at hany
      exact hany e (List.mem_finRange e)
    · exact hidle

end Tracked

/-! ## Ticks of a chunk -/

/-- What a tick needs to know of the ticks before it. -/
structure LaneLink (e : Fin n) (env : EnvState n A O)
    (last : Option Report) : Prop where
  ended : env.done e = true → ∀ report ∈ last, report.done = true
  live : env.done e = false → env.chunkIntervened e = true →
    ∃ report, last = some report ∧ Reporting env e report ∧ report.done = false

section Ticks

variable {e : Fin n}

theorem LaneLink.chunkStart (env : EnvState n A O) (action : Fin n → A) :
    LaneLink e (beginTick env action true).1 none := by
  constructor
  case ended => simp
  case live => simp [beginTick, noEnvs]

theorem LaneLink.nextTick (hlink : LaneLink e env last) (action : Fin n → A) :
    LaneLink e (beginTick env action false).1 last :=
  ⟨hlink.ended, hlink.live⟩

theorem laneTick_of_finishes (hlink : LaneLink e start last)
    (hfinishes : FinishesTick
      (fun env tick => ∃ calls, LaneTracked e start calls env tick) next) :
    ∃ calls, next.1.calls = start.calls ++ calls ∧
      Treatment last ⟨stepReports e calls, next.2.report e⟩ ∧
      LaneLink e next.1 ((stepReports e calls).getLast?.or last) := by
  obtain ⟨_, tick, reply, ⟨env, ticked⟩, ⟨earlier, hearlier⟩, hstep,
    ⟨calls, htracked⟩, hpublish⟩ := hfinishes
  have hidle := fun hnil =>
    hearlier.not_selected hstep htracked.transcript hnil
  unfold publishStep at hpublish
  split at hpublish
  · cases hpublish
  next rows hrows =>
    cases hpublish
    refine ⟨calls, htracked.transcript, ?_⟩
    have hbefore : ticked.doneBeforeStep e = start.done e := htracked.before
    have hflag : env.done e = start.done e := htracked.flag
    have hreporting : ∀ report, Reporting env e report →
        (rows e).report = report := by
      rintro report ⟨found, hfound, hreport⟩
      rw [hrows, Option.some.injEq] at hfound
      rw [hfound, hreport]
    have hrowDone : (rows e).done = (rows e).report.done := rfl
    cases hstart : start.done e with
    | true =>
      have hnil := htracked.ended hstart
      have hfeedback : (stepFeedback rows ticked.doneBeforeStep).report e =
          .nothing := by
        simp [StepFeedback.report, stepFeedback, hbefore, hstart,
          Report.nothing]
      rw [hnil, hfeedback]
      constructor
      · exact .ended (hlink.ended hstart)
      · constructor
        case ended => exact fun _ => hlink.ended hstart
        case live => simp [hflag, hstart]
    | false =>
      have hfeedback : (stepFeedback rows ticked.doneBeforeStep).report e =
          (rows e).report := by
        simp [StepFeedback.report, stepFeedback, hbefore, hstart,
          StepRow.report]
      rw [hfeedback]
      rcases List.eq_nil_or_concat' (stepReports e calls) with
        hnil | ⟨before, report, hreports⟩
      · obtain ⟨hskipped, hnone⟩ := hidle hnil
        have hdone := hearlier.done
        rw [hnone, hstart] at hdone
        have hintervened : start.chunkIntervened e = true := by
          rw [TickState.executeMask, hdone, hearlier.intervened] at hskipped
          simp at hskipped
          exact hskipped.1
        obtain ⟨report, rfl, hold, hlive⟩ := hlink.live hstart hintervened
        have hkept := htracked.kept hnil report hold
        rw [hnil, hreporting report hkept]
        constructor
        · exact .skipped rfl hlive
        · constructor
          case ended =>
            intro hdone
            rw [← hreporting report hkept, ← hrowDone] at hlive
            simp [hflag, hstart, hlive] at hdone
          case live =>
            intro _ _
            exact ⟨report, rfl, ⟨rows, hrows, hreporting report hkept⟩, hlive⟩
      · have hmerged := htracked.stepped report (by rw [hreports]; simp)
        have hprefix := htracked.earlier
        rw [hreports, List.dropLast_concat] at hprefix
        rw [hreports, hreporting report hmerged, List.getLast?_concat]
        constructor
        · exact .stepped hprefix
        · have hdone : (rows e).done = report.done := by
            rw [hrowDone, hreporting report hmerged]
          constructor
          case ended =>
            intro hnow
            simpa [hflag, hstart, hdone] using hnow
          case live =>
            intro hnow _
            refine ⟨report, rfl, ⟨rows, hrows, hreporting report hmerged⟩, ?_⟩
            simpa [hflag, hstart, hdone] using hnow

theorem laneTick_of_executeActionStep
    (hlink : LaneLink e (beginTick env input.action chunkStarted).1 last)
    (htick : executeActionStep env input chunkStarted = .ok ticked) :
    ∃ calls, ticked.1.calls = env.calls ++ calls ∧
      ticked.1.calls.drop env.calls.length = calls ∧
      Treatment last ⟨stepReports e calls, ticked.2.report e⟩ ∧
      LaneLink e ticked.1 ((stepReports e calls).getLast?.or last) := by
  have hfinishes := (laneTracked_invariant e _).stepWithTeleop_ok
    ⟨[], LaneTracked.begin env input.action chunkStarted⟩ htick
  obtain ⟨calls, hcalls, htreatment, hnext⟩ :=
    laneTick_of_finishes hlink hfinishes
  have hdrop : ticked.1.calls.drop env.calls.length = calls := by
    rw [hcalls]
    exact List.drop_left
  exact ⟨calls, hcalls, hdrop, htreatment, hnext⟩

theorem treated_of_executedTicks
    (hlink : ∀ action, LaneLink e (beginTick env action chunkStarted).1 last)
    (hticks : executedTicks env chunkStarted inputs = .ok ticks) :
    Treated last (laneTicks e ticks) := by
  induction inputs generalizing env chunkStarted last ticks with
  | nil =>
    cases hticks
    exact .nil
  | cons input inputs ih =>
    obtain ⟨ticked, htick, htail⟩ := bind_eq_ok.mp hticks
    obtain ⟨rest, hrest, hpure⟩ := bind_eq_ok.mp htail
    cases hpure
    obtain ⟨calls, _, hdrop, htreatment, hnext⟩ :=
      laneTick_of_executeActionStep (hlink input.action) htick
    simp only [laneTicks, List.map_cons, hdrop]
    exact .cons htreatment (ih hnext.nextTick hrest)

theorem stepReports_executeSteps
    (hlink : ∀ action, LaneLink e (beginTick env action chunkStarted).1 last)
    (hticks : executedTicks env chunkStarted inputs = .ok ticks)
    (hsteps : executeSteps env chunkStarted inputs = .ok next) :
    stepReports e next.1.calls = stepReports e env.calls ++
      ((laneTicks e ticks).map (·.reports)).flatten := by
  induction inputs generalizing env chunkStarted last ticks next with
  | nil =>
    cases hticks
    cases hsteps
    simp [laneTicks]
  | cons input inputs ih =>
    obtain ⟨ticked, htick, htail⟩ := bind_eq_ok.mp hticks
    obtain ⟨rest, hrest, hpure⟩ := bind_eq_ok.mp htail
    cases hpure
    obtain ⟨other, hother, hsteps⟩ := bind_eq_ok.mp hsteps
    obtain ⟨later, hlater, hpure⟩ := bind_eq_ok.mp hsteps
    cases hpure
    rw [htick] at hother
    cases hother
    obtain ⟨calls, hcalls, hdrop, _, hnext⟩ :=
      laneTick_of_executeActionStep (hlink input.action) htick
    rw [ih hnext.nextTick hrest hlater]
    simp only [laneTicks, List.map_cons, List.flatten_cons, hdrop]
    rw [hcalls, stepReports_append, List.append_assoc]

end Ticks

/-! ## Serial chunks -/

section Chunk

variable {config : EnvConfig} {env : EnvState n A O}
  {inputs : List (TickInput n A O)} {fresh : Option (Fin n → EnvObs O)}
  {next : EnvState n A O × List (StepFeedback n)}

theorem stepReports_finishExecutionSlice
    (hfinish : finishExecutionSlice config env steps fresh resetObs =
      .ok finished) (e : Fin n) :
    stepReports e finished.calls = stepReports e env.calls := by
  unfold finishExecutionSlice at hfinish
  split at hfinish
  · cases hfinish
  · cases hfinish
    simp only [clearFlags, resetDoneEnvs]
    split_ifs
    · rw [stepReports_append]
      simp [stepReports, BackendCall.report]
    · rfl

/-- In every serial chunk, each environment's feedback is conserved exactly if
no tick without a step has something to repeat, and no step that another step
of its tick follows has something to lose. -/
theorem feedback_conserved_iff
    (hstep : serialStep config env inputs fresh resetObs = .ok next) :
    ∃ ticks, executedTicks env true inputs = .ok ticks ∧
      ticks.map (·.feedback) = next.2 ∧
      ∀ e, stepReports e next.1.calls = stepReports e env.calls ++
          ((laneTicks e ticks).map (·.reports)).flatten ∧
        (FeedbackConserved (laneTicks e ticks) ↔
          NothingRepeated none ((laneTicks e ticks).map (·.reports)) ∧
          NothingLost ((laneTicks e ticks).map (·.reports))) := by
  obtain ⟨executed, hsteps, htail⟩ := bind_eq_ok.mp hstep
  obtain ⟨finished, hfinish, hpure⟩ := bind_eq_ok.mp htail
  cases hpure
  obtain ⟨ticks, hticks, hfeedback⟩ := executedTicks_of_steps hsteps
  refine ⟨ticks, hticks, hfeedback, ?_⟩
  intro e
  constructor
  · rw [stepReports_finishExecutionSlice hfinish e]
    exact stepReports_executeSteps (LaneLink.chunkStart env) hticks hsteps
  · exact conserved_iff
      (treated_of_executedTicks (LaneLink.chunkStart env) hticks)

end Chunk

/-! ## A skipped tail step -/

def freshEnv : EnvState 1 ℤ ℕ :=
  reset ⟨false⟩ .initial fullReset fun _ => sampleObs 0

/-- The operator takes over the first tick, which earns a reward of one; the
policy action of the second tick is skipped. -/
def takenOverChunk : List (TickInput 1 ℤ ℕ) :=
  [{ action := fun _ => 0
     polls :=
       [{ commands := fun _ => { quietCommand with intervention := some 5 }
          reply := fun _ => sampleRow false }]
     reply := fun _ => { sampleRow false with reward := 1 } },
    quietTick noEnvs]

def takenOverResult :=
  serialStep ⟨false⟩ freshEnv takenOverChunk none fun _ => sampleObs 0

theorem takenOverResult_isSome : takenOverResult.toOption.isSome := by
  decide +kernel

theorem takenOverTicks_isSome :
    (executedTicks freshEnv true takenOverChunk).toOption.isSome := by
  decide +kernel

/-- The reward of the operator's step is reported twice. -/
theorem skipped_step_repeats_reward :
    ∃ next ticks, serialStep ⟨false⟩ freshEnv takenOverChunk none
        (fun _ => sampleObs 0) = .ok next ∧
      executedTicks freshEnv true takenOverChunk = .ok ticks ∧
      feedbackReward (laneTicks 0 ticks) = 2 ∧
      stepReward (laneTicks 0 ticks) = 1 ∧
      ¬FeedbackConserved (laneTicks 0 ticks) := by
  have hreward : feedbackReward (laneTicks 0
      ((executedTicks freshEnv true takenOverChunk).toOption.get
        takenOverTicks_isSome)) = 2 := by decide +kernel
  have hstep : stepReward (laneTicks 0
      ((executedTicks freshEnv true takenOverChunk).toOption.get
        takenOverTicks_isSome)) = 1 := by decide +kernel
  refine ⟨takenOverResult.toOption.get takenOverResult_isSome,
    (executedTicks freshEnv true takenOverChunk).toOption.get
      takenOverTicks_isSome, ?_, ?_, hreward, hstep, ?_⟩
  · exact ok_get_toOption takenOverResult_isSome
  · exact ok_get_toOption takenOverTicks_isSome
  · intro hconserved
    have hequal := hconserved.reward
    rw [hreward, hstep] at hequal
    norm_num at hequal

theorem feedback_conserved_iff_takenOver :
    ∃ next ticks, executedTicks freshEnv true takenOverChunk = .ok ticks ∧
      ticks.map (·.feedback) = next ∧
      (FeedbackConserved (laneTicks 0 ticks) ↔
        NothingRepeated none ((laneTicks 0 ticks).map (·.reports)) ∧
        NothingLost ((laneTicks 0 ticks).map (·.reports))) := by
  obtain ⟨ticks, hticks, hfeedback, hlanes⟩ :=
    feedback_conserved_iff (ok_get_toOption takenOverResult_isSome)
  exact ⟨_, ticks, hticks, hfeedback, (hlanes 0).2⟩

end BaseEnv
end VerlVla
