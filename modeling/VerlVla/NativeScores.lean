import VerlVla.EvalAgreement
import VerlVla.ShardedStream
import VerlVla.TrajectoryScores

/-!
# Evaluator and trainer score a trajectory alike

A caller asks a policy and steps a vector that is not reset on its own.  The
evaluator and the collector make the same calls of it.  After a lane has ended
the vector reports nothing for it any more.
-/

namespace VerlVla
namespace Collation

open BaseEnv NativeEval

/-! ## Vectors behind a policy -/

structure Scored {n : ℕ} {A O : Type} (input : TickInput n A O) : Prop where
  reply : ∀ e, (input.reply e).score.isSome = true
  polls : ∀ poll ∈ input.polls, ∀ e, (poll.reply e).score.isSome = true

/-- A call steps the vector through one chunk of some fixed length. -/
structure VectorCaller (σ ε : Type) (n : ℕ) (A O : Type) where
  call : σ → Except ε (σ × List (StepFeedback n))
  base : σ → EnvState n A O
  substeps : ℕ
  substeps_pos : 0 < substeps
  stepped : ∀ {state next steps}, call state = .ok (next, steps) →
    ∃ inputs fresh resetObs, inputs.length = substeps ∧
      (∀ input ∈ inputs, Scored input) ∧
      serialStep evalEnvConfig (base state) inputs fresh resetObs =
        .ok (base next, steps)

namespace VectorCaller

variable {σ ε : Type} {n : ℕ} {A O : Type} (caller : VectorCaller σ ε n A O)

def evaluateCalls (reduction : ScoreReduction) :
    ℕ → σ → EvalLoop n → Except ε (EvalLoop n × σ)
  | 0, state, loop => .ok (loop, state)
  | calls + 1, state, loop => do
    let asked := loop.countCalls
    let next ← caller.call state
    let observed := asked.observeSteps reduction next.2
    if observed.allDone then .ok (observed, next.1)
    else evaluateCalls reduction calls next.1 observed

def collectCalls : ℕ → σ → Mask n → Except ε (List (List (StepFeedback n)) × σ)
  | 0, state, _ => .ok ([], state)
  | calls + 1, state, done => do
    let next ← caller.call state
    let ended : Mask n := fun e => done e ||
      next.2.any fun step => step.terminated e || step.truncated e
    if (List.finRange n).all ended then .ok ([next.2], next.1)
    else do
      let rest ← collectCalls calls next.1 ended
      .ok (next.2 :: rest.1, rest.2)

/-- Calls that go on although every lane has ended. -/
def repeatCalls : ℕ → σ → Except ε (List (List (StepFeedback n)) × σ)
  | 0, state => .ok ([], state)
  | calls + 1, state => do
    let next ← caller.call state
    let rest ← repeatCalls calls next.1
    .ok (next.2 :: rest.1, rest.2)

end VectorCaller

structure FreshReset {n : ℕ} {A O : Type} (env : EnvState n A O) : Prop where
  merged : env.mergedStepResult = none
  done : env.done = noEnvs

/-- Nothing is reported for the lane. -/
def Idle {n : ℕ} (e : Fin n) (steps : List (StepFeedback n)) : Prop :=
  ∀ step ∈ steps, step.reward e = 0 ∧ step.terminated e = false ∧
    step.truncated e = false ∧ step.success e = false ∧
    step.score e = some 0

/-- The evaluator and the trainer agree about the lane. -/
structure ScoredAlike {n : ℕ} {ω : Type} (loop : EvalLoop n)
    (rollout : DataProto ω) (e : Fin n) : Prop where
  score : ∃ scores, (terminalTrajectoryScores rollout.batch :
    Except (TrainingError ω) (ℕ → ℚ)) = .ok scores ∧ scores e = loop.score e
  success : ∃ success, rollout.batch.lookup "next.success" = some success ∧
    anyOf success e = loop.success e

/-! ## The same calls -/

section SameCalls

variable {σ ε : Type} {n : ℕ} {A O : Type} {caller : VectorCaller σ ε n A O}

theorem done_observeCall (reduction : ScoreReduction) (loop : EvalLoop n)
    (steps : List (StepFeedback n)) :
    (observeCall reduction loop steps).done = fun e => loop.done e ||
      steps.any fun step => step.terminated e || step.truncated e := by
  funext e
  show (loop.done e || _ || _) = _
  rw [Bool.or_assoc, any_or_any]

theorem evaluateCalls_collects {loop final : EvalLoop n}
    (heval : caller.evaluateCalls reduction calls state loop =
      .ok (final, last)) :
    ∃ made, caller.collectCalls calls state loop.done = .ok (made, last) ∧
      final = made.foldl (observeCall reduction) loop := by
  induction calls generalizing state loop with
  | zero =>
    cases heval
    exact ⟨[], rfl, rfl⟩
  | succ calls ih =>
    obtain ⟨next, hnext, hrest⟩ := bind_eq_ok.mp heval
    have hdone := done_observeCall reduction loop next.2
    unfold VectorCaller.collectCalls
    rw [hnext]
    simp only [bind, Except.bind]
    rw [← hdone]
    by_cases hall : (observeCall reduction loop next.2).allDone = true
    · have hstop : ((List.finRange n).all
          (observeCall reduction loop next.2).done) = true := hall
      rw [if_pos hstop]
      unfold observeCall at hall
      rw [if_pos hall] at hrest
      cases hrest
      exact ⟨[next.2], rfl, rfl⟩
    · have hgo : ¬((List.finRange n).all
          (observeCall reduction loop next.2).done) = true := hall
      rw [if_neg hgo]
      unfold observeCall at hall
      rw [if_neg hall] at hrest
      obtain ⟨made, hmade, hfinal⟩ := ih hrest
      refine ⟨next.2 :: made, ?_, ?_⟩
      · have hmore : caller.collectCalls calls next.1
            (observeCall reduction loop next.2).done = .ok (made, last) :=
          hmade
        rw [hmore]
      · rw [List.foldl_cons]
        exact hfinal

end SameCalls

/-! ## What a chunk reports -/

section Chunk

variable {n : ℕ} {A O : Type} {env : EnvState n A O}

def MergedScored (env : EnvState n A O) : Prop :=
  ∀ rows, env.mergedStepResult = some rows → ∀ e, (rows e).score.isSome = true

theorem applyManualStepOverrides_score (tick : TickState n A)
    (reply : Fin n → StepRow O) (e : Fin n) :
    (applyManualStepOverrides tick reply e).score = (reply e).score := by
  unfold applyManualStepOverrides applyForceTruncated applyManualReward
  split_ifs <;> rfl

theorem stepSelected_scored (hmerged : MergedScored env)
    (hreply : ∀ e, (reply e).score.isSome = true)
    (hstep : stepSelected env tick executeMask isIntervention reply =
      .ok next) : MergedScored next.1 := by
  unfold stepSelected at hstep
  split_ifs at hstep
  · have hnext := (maskStep_eq_ok hstep).1
    intro rows hrows e
    rw [hnext] at hrows
    cases hrows
    have hrow : (applyManualStepOverrides tick reply e).score.isSome =
        true := by
      rw [applyManualStepOverrides_score]
      exact hreply e
    unfold updateStepResult
    cases hold : env.mergedStepResult with
    | none => exact hrow
    | some old =>
      dsimp only
      split_ifs
      · obtain ⟨score, hscore⟩ := Option.isSome_iff_exists.mp hrow
        simp [hscore]
      · exact hmerged old hold e
  · cases hstep
    exact hmerged

theorem teleopLoop_scored (hmerged : MergedScored env)
    (hreply : ∀ e, (reply e).score.isSome = true)
    (hpolls : ∀ poll ∈ polls, ∀ e, (poll.reply e).score.isSome = true)
    (hloop : teleopLoop env tick reply polls = .ok next) :
    MergedScored next.1 := by
  induction polls generalizing env tick with
  | nil => exact stepSelected_scored hmerged hreply hloop
  | cons poll polls ih =>
    have hpoll := hpolls poll List.mem_cons_self
    unfold teleopLoop at hloop
    dsimp only at hloop
    split_ifs at hloop
    · obtain ⟨polled, hpolled, hrest⟩ := bind_eq_ok.mp hloop
      obtain ⟨stepped, hstep, hpure⟩ := bind_eq_ok.mp hpolled
      cases hpure
      exact ih (stepSelected_scored hmerged hpoll hstep)
        (fun other hother => hpolls other (List.mem_cons_of_mem _ hother))
        hrest
    · exact stepSelected_scored hmerged hpoll hloop

theorem executeActionStep_scored (hmerged : MergedScored env)
    (hinput : Scored input)
    (hstep : executeActionStep env input chunkStarted = .ok next) :
    MergedScored next.1 ∧ ∀ e, (next.2.score e).isSome = true := by
  rw [executeActionStep_eq_bind] at hstep
  obtain ⟨looped, hloop, hpublish⟩ := bind_eq_ok.mp hstep
  have hbegin : MergedScored
      (beginTick env input.action chunkStarted).1 := hmerged
  have hlooped := teleopLoop_scored hbegin hinput.reply hinput.polls hloop
  unfold publishStep at hpublish
  cases hrows : looped.1.mergedStepResult with
  | none =>
    simp [hrows] at hpublish
  | some rows =>
    rw [hrows] at hpublish
    cases hpublish
    constructor
    · intro other hother
      cases hother
      exact hlooped rows hrows
    · intro e
      simpa [stepFeedback] using hlooped rows hrows e

theorem doneBeforeStep_kept (e : Fin n) : TickInvariant
    fun (_ : EnvState n A O) (tick : TickState n A) =>
      tick.doneBeforeStep e = true := by
  constructor
  · intro env tick executeMask isIntervention reply next hdone _ hstep
    obtain ⟨-, htick⟩ := maskStep_eq_ok hstep
    rw [htick]
    exact hdone
  · intro env tick poll hdone
    exact hdone
  · intro env tick poll mask hdone
    exact hdone

theorem executeActionStep_idle {e : Fin n} (hdone : env.done e = true)
    (hstep : executeActionStep env input chunkStarted = .ok next)
    (hscore : (next.2.score e).isSome = true) : Idle e [next.2] := by
  have hbegin : (beginTick env input.action chunkStarted).2.doneBeforeStep
      e = true := hdone
  obtain ⟨_, _, _, stepped, _, _, hkept, hpublish⟩ :=
    (doneBeforeStep_kept e).stepWithTeleop_ok hbegin hstep
  unfold publishStep at hpublish
  cases hrows : stepped.1.mergedStepResult with
  | none =>
    simp [hrows] at hpublish
  | some rows =>
    rw [hrows] at hpublish
    cases hpublish
    intro step hmem
    rw [List.mem_singleton.mp hmem]
    dsimp only at hscore
    unfold stepFeedback at hscore ⊢
    rw [Option.isSome_map] at hscore
    obtain ⟨score, hrow⟩ := Option.isSome_iff_exists.mp hscore
    simp [hkept, hrow]

structure ChunkReport (env next : EnvState n A O)
    (inputs : List (TickInput n A O)) (steps : List (StepFeedback n)) :
    Prop where
  length : steps.length = inputs.length
  scored : ∀ step ∈ steps, ∀ e, (step.score e).isSome = true
  merged : MergedScored next
  done : ∀ e, next.done e =
    (env.done e || steps.any fun step => step.flagged e)
  idle : ∀ e, env.done e = true → Idle e steps

theorem executeSteps_report (hmerged : MergedScored env)
    (hinputs : ∀ input ∈ inputs, Scored input)
    (hsteps : executeSteps env chunkStarted inputs = .ok next) :
    ChunkReport env next.1 inputs next.2 := by
  induction inputs generalizing env chunkStarted next with
  | nil =>
    cases hsteps
    constructor
    · rfl
    · exact nofun
    · exact hmerged
    · intro e
      simp
    · exact nofun
  | cons input inputs ih =>
    obtain ⟨first, hfirst, hrest⟩ := bind_eq_ok.mp hsteps
    obtain ⟨rest, hrestSteps, hpure⟩ := bind_eq_ok.mp hrest
    cases hpure
    obtain ⟨hfirstMerged, hfirstScored⟩ := executeActionStep_scored hmerged
      (hinputs input List.mem_cons_self) hfirst
    have htail := ih hfirstMerged
      (fun other hother => hinputs other (List.mem_cons_of_mem _ hother))
      hrestSteps
    have hends : ∀ e, first.1.done e = (env.done e || first.2.flagged e) :=
      fun e => (executeActionStep_ends hfirst).done
    constructor
    · rw [List.length_cons, List.length_cons, htail.length]
    · intro step hstep
      cases List.mem_cons.mp hstep with
      | inl hsame =>
        rw [hsame]
        exact hfirstScored
      | inr hlater => exact htail.scored step hlater
    · exact htail.merged
    · intro e
      rw [htail.done e, hends e, List.any_cons, Bool.or_assoc]
    · intro e hdone step hstep
      cases List.mem_cons.mp hstep with
      | inl hsame =>
        have hidle := executeActionStep_idle hdone hfirst (hfirstScored e)
        rw [hsame]
        exact hidle first.2 (List.mem_singleton_self _)
      | inr hlater =>
        apply htail.idle e _ step hlater
        rw [hends e, hdone, Bool.true_or]

theorem finalizeExecutionObservation_score
    (fresh : Option (Fin n → EnvObs O)) (rows : Fin n → StepRow O)
    (e : Fin n) :
    (finalizeExecutionObservation fresh rows e).score = (rows e).score := by
  cases fresh with
  | none | some obs => rfl

theorem finishExecutionSlice_report (hmerged : MergedScored env)
    (hfinish : finishExecutionSlice evalEnvConfig env steps fresh resetObs =
      .ok next) : MergedScored next ∧ next.done = env.done := by
  unfold finishExecutionSlice at hfinish
  cases hrows : env.mergedStepResult with
  | none =>
    simp [hrows] at hfinish
  | some rows =>
    rw [hrows] at hfinish
    cases hfinish
    constructor
    · intro other hother e
      cases hother
      rw [finalizeExecutionObservation_score]
      exact hmerged rows hrows e
    · rfl

theorem serialStep_report (hmerged : MergedScored env)
    (hinputs : ∀ input ∈ inputs, Scored input)
    (hstep : serialStep evalEnvConfig env inputs fresh resetObs =
      .ok (next, steps)) : ChunkReport env next inputs steps := by
  obtain ⟨executed, hexecuted, hrest⟩ := bind_eq_ok.mp hstep
  obtain ⟨finished, hfinished, hpure⟩ := bind_eq_ok.mp hrest
  cases hpure
  have hreport := executeSteps_report hmerged hinputs hexecuted
  obtain ⟨hscored, hdone⟩ :=
    finishExecutionSlice_report hreport.merged hfinished
  constructor
  · exact hreport.length
  · exact hreport.scored
  · exact hscored
  · intro e
    rw [hdone]
    exact hreport.done e
  · exact hreport.idle

end Chunk

/-! ## What some calls report -/

section Calls

variable {σ ε : Type} {n : ℕ} {A O : Type} {caller : VectorCaller σ ε n A O}

inductive Made (caller : VectorCaller σ ε n A O) :
    σ → List (List (StepFeedback n)) → σ → Prop
  | nil (state : σ) : Made caller state [] state
  | cons {state middle last : σ} {steps : List (StepFeedback n)}
      {made : List (List (StepFeedback n))}
      (hcall : caller.call state = .ok (middle, steps))
      (hmade : Made caller middle made last) :
      Made caller state (steps :: made) last

theorem collectCalls_made
    (hcollect : caller.collectCalls calls state done = .ok (made, last)) :
    Made caller state made last := by
  induction calls generalizing state done made with
  | zero =>
    cases hcollect
    exact .nil _
  | succ calls ih =>
    obtain ⟨next, hnext, hrest⟩ := bind_eq_ok.mp hcollect
    dsimp only at hrest
    split_ifs at hrest
    · cases hrest
      exact .cons hnext (.nil _)
    · obtain ⟨rest, hmore, hpure⟩ := bind_eq_ok.mp hrest
      cases hpure
      exact .cons hnext (ih hmore)

theorem collectCalls_ne_nil (hcalls : 0 < calls)
    (hcollect : caller.collectCalls calls state done = .ok (made, last)) :
    made ≠ [] := by
  obtain ⟨remaining, rfl⟩ := Nat.exists_eq_succ_of_ne_zero hcalls.ne'
  obtain ⟨next, hnext, hrest⟩ := bind_eq_ok.mp hcollect
  dsimp only at hrest
  split_ifs at hrest
  · cases hrest
    exact List.cons_ne_nil _ _
  · obtain ⟨rest, hmore, hpure⟩ := bind_eq_ok.mp hrest
    cases hpure
    exact List.cons_ne_nil _ _

theorem repeatCalls_made
    (hrepeat : caller.repeatCalls calls state = .ok (made, last)) :
    Made caller state made last := by
  induction calls generalizing state made with
  | zero =>
    cases hrepeat
    exact .nil _
  | succ calls ih =>
    obtain ⟨next, hnext, hrest⟩ := bind_eq_ok.mp hrepeat
    obtain ⟨rest, hmore, hpure⟩ := bind_eq_ok.mp hrest
    cases hpure
    exact .cons hnext (ih hmore)

structure CallsReport (caller : VectorCaller σ ε n A O) (state last : σ)
    (made : List (List (StepFeedback n))) : Prop where
  uniform : Uniform caller.substeps made
  merged : MergedScored (caller.base last)
  done : ∀ e, (caller.base last).done e = ((caller.base state).done e ||
      made.flatten.any fun step => step.flagged e)
  idle : ∀ e, (caller.base state).done e = true → ∀ steps ∈ made, Idle e steps

theorem hasScores_of_scored {steps : List (StepFeedback n)} (hne : steps ≠ [])
    (hscored : ∀ step ∈ steps, ∀ e, (step.score e).isSome = true) :
    hasScores steps = true := by
  cases steps with
  | nil => exact absurd rfl hne
  | cons step steps =>
    unfold hasScores
    rw [List.all_eq_true]
    intro e _
    exact hscored step List.mem_cons_self e

theorem Made.report {state last : σ}
    {made : List (List (StepFeedback n))} (hmade : Made caller state made last)
    (hmerged : MergedScored (caller.base state)) :
    CallsReport caller state last made := by
  induction hmade with
  | nil state =>
    constructor
    · constructor
      · exact nofun
      · exact nofun
    · exact hmerged
    · intro e
      simp
    · exact nofun
  | @cons state middle last steps made hcall _ ih =>
    obtain ⟨inputs, fresh, resetObs, hlength, hinputs, hstep⟩ :=
      caller.stepped hcall
    have hfirst := serialStep_report hmerged hinputs hstep
    have hrest := ih hfirst.merged
    have hwidth : steps.length = caller.substeps := by
      rw [hfirst.length, hlength]
    have hne : steps ≠ [] := by
      have hpos := caller.substeps_pos
      rw [← hwidth] at hpos
      exact List.ne_nil_of_length_pos hpos
    constructor
    · constructor
      · intro other hother
        cases List.mem_cons.mp hother with
        | inl hsame =>
          rw [hsame]
          exact hwidth
        | inr hlater => exact hrest.uniform.length other hlater
      · intro other hother
        cases List.mem_cons.mp hother with
        | inl hsame =>
          rw [hsame]
          exact hasScores_of_scored hne hfirst.scored
        | inr hlater => exact hrest.uniform.scored other hlater
    · exact hrest.merged
    · intro e
      rw [hrest.done e, hfirst.done e, List.flatten_cons, List.any_append,
        Bool.or_assoc]
    · intro e hdone other hother
      cases List.mem_cons.mp hother with
      | inl hsame =>
        rw [hsame]
        exact hfirst.idle e hdone
      | inr hlater =>
        apply hrest.idle e _ other hlater
        rw [hfirst.done e, hdone, Bool.true_or]

end Calls

/-! ## The native evaluator -/

section Native

variable {S A O : Type}

theorem controlTick_executes (hscore : simulator.processScore.isSome = true)
    (hstep : controlTick simulator env action chunkStarted = .ok next) :
    ∃ input, Scored input ∧ executeActionStep env.base input chunkStarted =
        .ok (next.1.base, next.2) := by
  unfold controlTick at hstep
  dsimp only at hstep
  split at hstep
  · cases hstep
  next stepped hstepped =>
    cases hstep
    refine ⟨_, ?_, hstepped⟩
    constructor
    · intro e
      simpa [stepRow] using hscore
    · intro _ hpoll
      cases hpoll

theorem executeActions_executes {env : VectorEnv setup S A O}
    {actions : List (Fin setup.size → A)}
    (hscore : simulator.processScore.isSome = true)
    (hsteps : executeActions simulator env chunkStarted actions = .ok next) :
    ∃ inputs, inputs.length = actions.length ∧
      (∀ input ∈ inputs, Scored input) ∧
      executeSteps env.base chunkStarted inputs =
        .ok (next.1.base, next.2) := by
  induction actions generalizing env chunkStarted next with
  | nil =>
    cases hsteps
    refine ⟨[], rfl, ?_, rfl⟩
    exact nofun
  | cons action actions ih =>
    obtain ⟨first, hfirst, hrest⟩ := bind_eq_ok.mp hsteps
    obtain ⟨rest, hrestSteps, hpure⟩ := bind_eq_ok.mp hrest
    cases hpure
    obtain ⟨input, hinput, hexecuted⟩ := controlTick_executes hscore hfirst
    obtain ⟨inputs, hlength, hinputs, hmore⟩ := ih hrestSteps
    refine ⟨input :: inputs, ?_, ?_, ?_⟩
    · rw [List.length_cons, List.length_cons, hlength]
    · intro other hother
      cases List.mem_cons.mp hother with
      | inl hsame =>
        rw [hsame]
        exact hinput
      | inr hlater => exact hinputs other hlater
    · apply bind_eq_ok.mpr
      refine ⟨_, hexecuted, ?_⟩
      apply bind_eq_ok.mpr
      exact ⟨_, hmore, rfl⟩

theorem stepEnv_steps {env : VectorEnv setup S A O}
    (hscore : simulator.processScore.isSome = true)
    (hstep : stepEnv simulator env chunks = .ok next) :
    ∃ inputs fresh resetObs, inputs.length = 24 ∧
      (∀ input ∈ inputs, Scored input) ∧
      serialStep evalEnvConfig env.base inputs fresh resetObs =
        .ok (next.1.base, next.2) := by
  obtain ⟨executed, hexecuted, hrest⟩ := bind_eq_ok.mp hstep
  obtain ⟨inputs, hlength, hinputs, hsteps⟩ :=
    executeActions_executes hscore hexecuted
  rw [List.length_ofFn] at hlength
  cases hfinish : finishExecutionSlice evalEnvConfig executed.1.base
      executed.2 none (executed.1.robotObs simulator) with
  | error raised =>
    simp [hfinish] at hrest
  | ok base =>
    rw [hfinish] at hrest
    cases hrest
    refine ⟨inputs, none, executed.1.robotObs simulator, hlength, hinputs, ?_⟩
    apply bind_eq_ok.mpr
    refine ⟨_, hsteps, ?_⟩
    apply bind_eq_ok.mpr
    exact ⟨_, hfinish, rfl⟩

def nativeCaller (simulator : RobotSimulator S A O) (model : FastWam O A)
    (config : EvalConfig) (setup : VectorSetup)
    (hscore : simulator.processScore.isSome = true) :
    VectorCaller (VectorEnv setup S A O) NativeError setup.size A O where
  call env := do
    let actions ← inferSharedModelInMicrobatches model env.obs
      config.policyMicrobatchSize
    if hrows : setup.size = actions.length then
      stepEnv simulator env fun e => actions.get (e.cast hrows)
    else .error .actionShape
  base env := env.base
  substeps := 24
  substeps_pos := by decide
  stepped := by
    intro state next steps hcall
    obtain ⟨actions, _, hrest⟩ := bind_eq_ok.mp hcall
    split_ifs at hrest
    exact stepEnv_steps hscore hrest

theorem policyLoop_eq_evaluateCalls (model : FastWam O A)
    (config : EvalConfig) (hscore : simulator.processScore.isSome = true)
    (wave : Wave setup S A O) (calls : ℕ) :
    policyLoop simulator model config wave calls =
      ((nativeCaller simulator model config setup hscore).evaluateCalls
        config.processScoreReduction calls wave.env wave.loop).map
          fun result => { wave with env := result.2, loop := result.1 } := by
  induction calls generalizing wave with
  | zero => rfl
  | succ calls ih =>
    unfold policyLoop VectorCaller.evaluateCalls
    dsimp only [nativeCaller]
    have hobs : wave.countCalls.env = wave.env := rfl
    rw [hobs]
    cases hactions : inferSharedModelInMicrobatches model wave.env.obs
        config.policyMicrobatchSize with
    | error error => rfl
    | ok actions =>
      simp only [bind, Except.bind]
      unfold Wave.execute
      by_cases hrows : actions.length = setup.size
      · rw [dif_pos hrows, dif_pos hrows.symm]
        rw [hobs]
        cases hstep : stepEnv simulator wave.env (fun e =>
            actions.get (e.cast hrows.symm)) with
        | error error => rfl
        | ok stepped =>
          simp only [bind, Except.bind, Wave.countCalls]
          by_cases hall : (wave.loop.countCalls.observeSteps
              config.processScoreReduction stepped.2).allDone = true
          · rw [if_pos hall, if_pos hall]
            rfl
          · rw [if_neg hall, if_neg hall]
            exact ih _
      · rw [dif_neg hrows, dif_neg (Ne.symm hrows)]
        rfl

def pairedSetup : VectorSetup where
  topology := pairedTopology
  slot := ⟨0, 0⟩
  robodojo := pairedConfig

def pairedWave : Wave pairedSetup ℕ ℕ ℕ where
  env := resetEnv countingRobot (.initial pairedConfig) .initial true
  identity := []
  loop := .start

theorem policyLoop_eq_evaluateCalls_paired :
    policyLoop countingRobot idlePolicy twoShards.config pairedWave 2 =
      ((nativeCaller countingRobot idlePolicy twoShards.config pairedSetup
        rfl).evaluateCalls .terminal 2 pairedWave.env .start).map fun result =>
          { pairedWave with env := result.2, loop := result.1 } :=
  policyLoop_eq_evaluateCalls idlePolicy twoShards.config rfl pairedWave 2

end Native

/-! ## Agreement -/

section Agreement

variable {n : ℕ} {ω : Type}

theorem idle_flagged {e : Fin n} {calls : List (List (StepFeedback n))}
    (hidle : ∀ steps ∈ calls, Idle e steps) :
    (calls.flatten.any fun step => step.success e) = false := by
  rw [List.any_eq_false]
  intro step hstep
  obtain ⟨steps, hsteps, hmem⟩ := List.mem_flatten.mp hstep
  have hquiet := hidle steps hsteps step hmem
  simp [hquiet.2.2.2.1]

theorem Running.scoredAlike (hloop : Running loop steps)
    (hread : ReadOff rollout steps) (e : Fin n) :
    ScoredAlike loop rollout e := by
  obtain ⟨scores, hscores, hsame⟩ := hread.scores
  obtain ⟨success, hsuccess, hany⟩ := hread.success
  constructor
  · refine ⟨scores, hscores, ?_⟩
    rw [hsame e, hloop.score e]
  · refine ⟨success, hsuccess, ?_⟩
    rw [hany e, hloop.success e]

theorem Running.scoredAlike_idle {loop : EvalLoop n}
    {made idle : List (List (StepFeedback n))}
    (hloop : Running loop made.flatten)
    (hread : ReadOff rollout (made ++ idle).flatten) {e : Fin n}
    (hdone : loop.done e = true) (hidle : ∀ steps ∈ idle, Idle e steps) :
    ScoredAlike loop rollout e := by
  obtain ⟨scores, hscores, hsame⟩ := hread.scores
  obtain ⟨success, hsuccess, hany⟩ := hread.success
  rw [List.flatten_append] at hsame hany
  constructor
  · refine ⟨scores, hscores, ?_⟩
    rw [hsame e, hloop.score e]
    by_cases hnone : idle.flatten = []
    · rw [hnone, List.append_nil]
    · rw [trajectoryScore_append hnone, ← hloop.done e, if_pos hdone]
  · refine ⟨success, hsuccess, ?_⟩
    rw [hany e, List.any_append, idle_flagged hidle, Bool.or_false,
      hloop.success e]

end Agreement

theorem Uniform.collates {n substeps : ℕ} {ω : Type} (blank : ω)
    {calls : List (List (StepFeedback n))} (huniform : Uniform substeps calls)
    (hne : calls ≠ []) : ∃ rollout, Collates blank calls rollout := by
  have hshapes : ∀ key, ∀ dict ∈ calls.map feedbackBatch, ∀ value,
      dict.lookup key = some value → value.shape = [n, substeps] := by
    intro key dict hdict value hvalue
    obtain ⟨steps, hsteps, rfl⟩ := List.mem_map.mp hdict
    obtain ⟨field, hfield⟩ := feedbackBatch_field hvalue
    rw [hfield, ← huniform.length steps hsteps]
    rfl
  obtain ⟨merged, hmerged⟩ := stackFields_of_shapes 0 "next" hshapes
  have hempty : ∀ (α : Type) (zero : α) (label : String),
      stackFields zero (calls.map fun _ => (∅ : Dict (Tensor α))) label =
        .ok ∅ := by
    intro α zero label
    have hkeys : stackKeys (calls.map fun _ => (∅ : Dict (Tensor α))) =
        [] := by
      rw [List.eq_nil_iff_forall_not_mem]
      intro key hkey
      obtain ⟨dict, hdict, hlookup⟩ := mem_stackKeys.mp hkey
      obtain ⟨_, _, rfl⟩ := List.mem_map.mp hdict
      cases hlookup
    unfold stackFields
    rw [hkeys]
    rfl
  let blankProto : DataProto ω := ⟨∅, ∅, ∅⟩
  let slots : List (Slot ω) := calls.map fun steps =>
    ⟨blankProto, blankProto, ⟨feedbackBatch steps, ∅, ∅⟩⟩
  have hslots : slots ≠ [] := by
    intro hnil
    exact hne (List.map_eq_nil_iff.mp hnil)
  have hblank : ∀ label, stackSlots blank (calls.map fun _ => blankProto)
      label = .ok (∅, ∅) := by
    intro label
    unfold stackSlots
    rw [List.map_map, List.map_map]
    have htensors := hempty ℚ 0 label
    have harrays := hempty ω blank label
    apply bind_eq_ok.mpr
    refine ⟨∅, htensors, ?_⟩
    apply bind_eq_ok.mpr
    exact ⟨∅, harrays, rfl⟩
  have hnext : stackSlots blank (slots.map Slot.feedback) "next" =
      .ok (merged, ∅) := by
    unfold stackSlots
    rw [List.map_map, List.map_map, List.map_map, List.map_map]
    have harrays := hempty ω blank "next"
    apply bind_eq_ok.mpr
    refine ⟨merged, hmerged, ?_⟩
    apply bind_eq_ok.mpr
    exact ⟨∅, harrays, rfl⟩
  refine ⟨⟨merged ∪ (∅ ∪ ∅), ∅ ∪ (∅ ∪ ∅), ∅⟩, slots, blankProto, blankProto,
    ?_, ?_⟩
  · rw [List.map_map]
    rfl
  · unfold collateCandidateTrajectory
    rw [require_bind_eq_ok]
    refine ⟨hslots, ?_⟩
    have hobs : stackSlots blank (slots.map Slot.observation) "obs" =
        .ok (∅, ∅) := by
      rw [List.map_map]
      exact hblank "obs"
    have haction : stackSlots blank (slots.map Slot.action) "action" =
        .ok (∅, ∅) := by
      rw [List.map_map]
      exact hblank "action"
    rw [hobs, haction, hnext]
    rfl

/-- The evaluator's running score and success are what the trainer reads off
the collated rollout of the same calls, which can be collated.  Idle chunks of a finished lane change
neither, and a lane that has ended has only idle chunks in later calls. -/
theorem evaluator_scores_as_trainer {σ ε : Type} {n : ℕ} {A O ω : Type}
    (blank : ω) (caller : VectorCaller σ ε n A O) {start last : σ}
    (hfresh : FreshReset (caller.base start)) {maxPolicyCalls : ℕ}
    {loop : EvalLoop n}
    (heval : caller.evaluateCalls .terminal maxPolicyCalls start .start =
      .ok (loop, last)) :
    ∃ made,
      caller.collectCalls maxPolicyCalls start noEnvs = .ok (made, last) ∧
      (0 < maxPolicyCalls → ∃ rollout, Collates blank made rollout) ∧
      (∀ rollout, Collates blank made rollout →
        ∀ e, ScoredAlike loop rollout e) ∧
      (∀ idle rollout, Uniform caller.substeps idle →
        Collates blank (made ++ idle) rollout → ∀ e, loop.done e = true →
          (∀ steps ∈ idle, Idle e steps) → ScoredAlike loop rollout e) ∧
      (∀ count later final,
        caller.repeatCalls count last = .ok (later, final) →
          Uniform caller.substeps later ∧
            ∀ e, loop.done e = true → ∀ steps ∈ later, Idle e steps) := by
  obtain ⟨made, hcollect, hloop⟩ := evaluateCalls_collects heval
  have hmerged : MergedScored (caller.base start) := by
    intro rows hrows
    rw [hfresh.merged] at hrows
    cases hrows
  have hreport := (collectCalls_made hcollect).report hmerged
  have hrunning : Running loop made.flatten := by
    rw [hloop]
    exact Running.calls hreport.uniform.scored
  refine ⟨made, hcollect, ?_, ?_, ?_, ?_⟩
  · intro hcalls
    exact hreport.uniform.collates blank (collectCalls_ne_nil hcalls hcollect)
  · intro rollout hcollates e
    exact hrunning.scoredAlike
      (hcollates.readOff hreport.uniform caller.substeps_pos) e
  · intro idle rollout huniform hcollates e hdone hidle
    have hall : Uniform caller.substeps (made ++ idle) := by
      constructor
      · intro steps hsteps
        cases List.mem_append.mp hsteps with
        | inl hmade => exact hreport.uniform.length steps hmade
        | inr hlater => exact huniform.length steps hlater
      · intro steps hsteps
        cases List.mem_append.mp hsteps with
        | inl hmade => exact hreport.uniform.scored steps hmade
        | inr hlater => exact huniform.scored steps hlater
    exact hrunning.scoredAlike_idle
      (hcollates.readOff hall caller.substeps_pos) hdone hidle
  · intro count later final hrepeat
    have hlater := (repeatCalls_made hrepeat).report hreport.merged
    refine ⟨hlater.uniform, ?_⟩
    intro e hdone
    apply hlater.idle e
    rw [hreport.done e, ← hrunning.done e, hdone, Bool.or_true]

/-! ### A vector that answers every call alike -/

def replayCaller {n : ℕ} {A O : Type} (inputs : List (TickInput n A O))
    (hpos : 0 < inputs.length) (hinputs : ∀ input ∈ inputs, Scored input)
    (resetObs : Fin n → EnvObs O) :
    VectorCaller (EnvState n A O) (Raised n A O) n A O where
  call env := serialStep evalEnvConfig env inputs none resetObs
  base env := env
  substeps := inputs.length
  substeps_pos := hpos
  stepped hcall := ⟨inputs, none, resetObs, rfl, hinputs, hcall⟩

def scoredRow (terminated : Bool) (score : ℚ) : StepRow Unit where
  obs := ⟨(), ∅⟩
  reward := 0
  terminated := terminated
  truncated := false
  success := terminated
  score := some score

/-- Two lanes; the first ends with the second step of the first call. -/
def scoredInputs : List (TickInput 2 ℕ Unit) :=
  [⟨fun _ => 0, [], fun _ => scoredRow false 1⟩,
    ⟨fun _ => 0, [], fun e => scoredRow (e.val == 0) 3⟩]

theorem scoredInputs_scored : ∀ input ∈ scoredInputs, Scored input := by
  intro input hinput
  constructor
  · intro e
    simp only [scoredInputs, List.mem_cons, List.not_mem_nil,
      or_false] at hinput
    cases hinput with
    | inl hfirst =>
      rw [hfirst]
      rfl
    | inr hsecond =>
      rw [hsecond]
      rfl
  · intro poll hpoll
    simp only [scoredInputs, List.mem_cons, List.not_mem_nil,
      or_false] at hinput
    cases hinput with
    | inl hfirst =>
      simp [hfirst] at hpoll
    | inr hsecond =>
      simp [hsecond] at hpoll

def scoredCaller :
    VectorCaller (EnvState 2 ℕ Unit) (Raised 2 ℕ Unit) 2 ℕ Unit :=
  replayCaller scoredInputs (by decide) scoredInputs_scored fun _ => ⟨(), ∅⟩

def scoredStart : EnvState 2 ℕ Unit :=
  { EnvState.initial with latestObs := some [⟨(), ∅⟩, ⟨(), ∅⟩] }

theorem evaluator_scores_as_trainer_twoLanes : ∃ loop last made,
      scoredCaller.evaluateCalls .terminal 3 scoredStart .start =
        .ok (loop, last) ∧
      loop.score 0 = 3 ∧ loop.done 0 = true ∧ loop.done 1 = false ∧
      scoredCaller.collectCalls 3 scoredStart noEnvs = .ok (made, last) ∧
      (∃ rollout, Collates () made rollout) ∧
      (∀ rollout, Collates () made rollout →
        ∀ e, ScoredAlike loop rollout e) := by
  have heval : ∃ loop last,
      scoredCaller.evaluateCalls .terminal 3 scoredStart .start =
        .ok (loop, last) ∧
      loop.score 0 = 3 ∧ loop.done 0 = true ∧ loop.done 1 = false :=
    ⟨_, _, rfl, by decide, by decide, by decide⟩
  obtain ⟨loop, last, hloop, hscore, hended, hlive⟩ := heval
  have hfresh : FreshReset (scoredCaller.base scoredStart) := ⟨rfl, rfl⟩
  obtain ⟨made, hmade, hcollates, hagree, -⟩ :=
    evaluator_scores_as_trainer () scoredCaller hfresh hloop
  exact ⟨loop, last, made, hloop, hscore, hended, hlive, hmade,
    hcollates (by decide), hagree⟩

end Collation
end VerlVla
