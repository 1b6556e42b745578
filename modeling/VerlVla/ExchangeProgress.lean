import VerlVla.ExecutorThreads

/-!
# Progress of a waiting exchange

If no exchange is inside when the executor is reset or closed, and none enters
behind a reset that waits or a close, a waiting exchange can always go on: the
control thread is in a step, may take the next action, or the exchange itself
is awake.  All sections that no caller starts use up work, so the exchange
leaves after finitely many of them.
-/

set_option linter.unusedSectionVars false

namespace VerlVla
namespace AsyncExecutor

open Transition

variable {A V : Type} [AddCommGroup A] [Module ℚ A]
  [AddCommGroup V] [Module ℚ V] {config : ExecutorConfig}

/-- Behind a reset that waits, an accepted exchange must return at once and
leave no action behind; behind a close its target must be within reach of the
step in flight.  A reset requires that no exchange is inside; so does a close,
unless the exchange has failed or needs no further action. -/
def CallAllowed (config : ExecutorConfig) (threads : Threads A V) :
    ThreadLabel A V → Prop
  | .enter (.exchange actions values outcome) =>
    config.checkExchange threads.core actions values = .ok () →
      (threads.core.resetting = true →
        config.target threads.core ≤ threads.core.completedSteps ∧
          (config.replacementQueue threads.core actions values = [] ∨
            outcome.resets = true)) ∧
      (threads.core.closed = true →
        config.target threads.core ≤ threads.core.replacementStep)
  | .enter .reset => threads.core.exchanging = none
  | .enter .close =>
    threads.core.exchanging ≠ none → threads.core.failed = false →
      ∀ target ∈ threads.core.returnTarget,
        target ≤ threads.core.replacementStep
  | _ => True

/-- The exchange waits for a target that the queue can still reach. -/
structure WithinReach (state : ExecutorState A V) (target : ℕ) : Prop where
  returnTarget : state.returnTarget = some target
  running : state.failed = false → state.paused = false
  supplied : state.failed = false →
    target ≤ state.replacementStep + state.actionQueue.length
  closing : state.failed = false → state.closed = true →
    target ≤ state.replacementStep

structure Lively (threads : Threads A V) : Prop where
  origin : threads.core.chunkOriginStep ≤ threads.core.completedSteps
  exchange : threads.core.exchanging ≠ none →
    ∃ target, WithinReach threads.core target
  exchangeAsleep : threads.exchangeAsleep = true → threads.core.exchangeBlocked
  resetting : threads.core.resetting = true →
    threads.core.exchanging = none ∧ threads.core.actionQueue = [] ∧
      threads.core.returnTarget = none
  controlAsleep : threads.controlAsleep = true →
    threads.core.inStep = false ∧ threads.core.closed = false ∧
      threads.core.controlBlocked
  controlEnded : threads.controlEnded = true → threads.core.inStep = false ∧
      (threads.core.closed = true ∨ threads.core.failed = true)

theorem lively_initial : Lively (.initial : Threads A V) where
  origin := le_refl _
  exchange hexchanging := absurd rfl hexchanging
  exchangeAsleep hasleep := by cases hasleep
  resetting hresetting := by cases hresetting
  controlAsleep hasleep := by cases hasleep
  controlEnded hended := by cases hended

/-! ## Progress -/

theorem Lively.progress {threads : Threads A V} (hlively : Lively threads)
    (hexchanging : threads.core.exchanging ≠ none) :
    ∃ label, label.isInternal = true ∧
      ((executorThreads A V config).step threads label).isSome := by
  obtain ⟨target, hreach⟩ := hlively.exchange hexchanging
  obtain ⟨feedbackSteps, hfeedback⟩ := Option.ne_none_iff_exists'.mp hexchanging
  have htarget := hreach.returnTarget
  by_cases hasleep : threads.exchangeAsleep = true
  · -- The control thread has to move.
    obtain ⟨_, hfailed, reached, hreached, hlow⟩ :=
      hlively.exchangeAsleep hasleep
    rw [htarget] at hreached
    cases hreached
    have hrunning := hreach.running hfailed
    have hsupplied := hreach.supplied hfailed
    by_cases hinStep : threads.core.inStep = true
    · refine ⟨.enter .complete, rfl, ?_⟩
      simp [executorThreads, Threads.step, Threads.mayEnter, executor,
        ExecutorState.complete, hinStep]
    · have hidle : threads.core.inStep = false := by simpa using hinStep
      have hreplacement :
          threads.core.replacementStep = threads.core.completedSteps := by
        simp [ExecutorState.replacementStep, hidle]
      rw [hreplacement] at hsupplied
      have hopen : threads.core.closed = false := by
        by_contra hclosed
        have hclosing := hreach.closing hfailed (by simpa using hclosed)
        omega
      have hqueue : threads.core.actionQueue ≠ [] := by
        intro hempty
        rw [hempty, List.length_nil] at hsupplied
        omega
      have hunblocked : ¬threads.core.controlBlocked := by
        rintro (hpaused | hempty | ⟨other, hother, hpast⟩)
        · rw [hrunning] at hpaused
          cases hpaused
        · exact hqueue hempty
        · rw [htarget] at hother
          cases hother
          omega
      have hcontrol : threads.controlAsleep = false := by
        by_contra hcontrol
        exact hunblocked (hlively.controlAsleep (by simpa using hcontrol)).2.2
      have halive : threads.controlEnded = false := by
        by_contra hended
        rcases (hlively.controlEnded (by simpa using hended)).2 with
          hclosed | hfail
        · rw [hopen] at hclosed
          cases hclosed
        · rw [hfailed] at hfail
          cases hfail
      obtain ⟨queued, rest, hcons⟩ := List.exists_cons_of_ne_nil hqueue
      have hmay : threads.core.mayPop := by
        refine ⟨hfailed, hopen, hidle, hrunning, ?_⟩
        intro other hother
        rw [htarget] at hother
        cases hother
        exact hlow
      refine ⟨.enter .pop, rfl, ?_⟩
      simp [executorThreads, Threads.step, Threads.mayEnter, executor,
        ExecutorState.pop, hcontrol, halive, hcons, hmay]
  · have hawake : threads.exchangeAsleep = false := by simpa using hasleep
    by_cases hlow : threads.core.completedSteps < target
    · by_cases hfailed : threads.core.failed = true
      · refine ⟨.enter (.wake .raised), rfl, ?_⟩
        simp [executorThreads, Threads.step, Threads.mayEnter, executor,
          ExecutorState.wake, hawake, hfeedback, htarget, hlow, hfailed]
      · refine ⟨.exchangeWait, rfl, ?_⟩
        have hblocked : threads.core.exchangeBlocked :=
          ⟨hexchanging, by simpa using hfailed, target, htarget, hlow⟩
        simp [executorThreads, Threads.step, hawake, hblocked]
    · refine ⟨.enter (.wake .raised), rfl, ?_⟩
      simp [executorThreads, Threads.step, Threads.mayEnter, executor,
        ExecutorState.wake, hawake, hfeedback, htarget, hlow]

/-! ## Preservation -/

section Preservation

variable {threads : Threads A V} {core : ExecutorState A V}

theorem Lively.waits {actions : List A} {values : List V}
    {outcome : SnapshotOutcome} (hlively : Lively threads)
    (hallowed : CallAllowed config threads
      (.enter (.exchange actions values outcome)))
    (hcheck : config.checkExchange threads.core actions values = .ok ())
    (hlow : threads.core.completedSteps < config.target threads.core) :
    Lively { threads.notifyAll with
      exchangeAsleep := true
      core := { threads.core.replaceQueue config actions values with
        exchanging := some actions.length } } := by
  obtain ⟨hbehindReset, hbehindClose⟩ := hallowed hcheck
  obtain ⟨_, hsteps, hfailed, _⟩ := checkExchange_ok hcheck
  have hlength := length_replacementQueue config threads.core actions values
  have hle := completedSteps_le_replacementStep threads.core
  have horigin := hlively.origin
  have hnotResetting : threads.core.resetting = false := by
    by_contra hresetting
    have hpast := (hbehindReset (by simpa using hresetting)).1
    omega
  refine ⟨horigin, ?_, ?_, ?_, nofun, hlively.controlEnded⟩
  · intro _
    refine ⟨config.target threads.core, rfl, fun _ => rfl, ?_, ?_⟩
    · intro _
      change config.target threads.core ≤ threads.core.replacementStep +
        (config.replacementQueue threads.core actions values).length
      unfold ExecutorConfig.target
      unfold ExecutorState.elapsedSteps at hlength
      omega
    · intro _ hclosed
      exact hbehindClose hclosed
  · intro _
    exact ⟨by simp, hfailed, config.target threads.core, rfl, hlow⟩
  · intro hresetting
    have hsame : threads.core.resetting = true := hresetting
    simp [hnotResetting] at hsame

theorem Lively.snapshot (hlively : Lively threads)
    (hresetting : core.resetting = true →
      core.actionQueue = [] ∨ outcome.resets = true)
    (horigin : core.chunkOriginStep = threads.core.chunkOriginStep)
    (hcompleted : core.completedSteps = threads.core.completedSteps)
    (hinStep : core.inStep = threads.core.inStep)
    (hclosed : core.closed = threads.core.closed)
    (hfailed : core.failed = threads.core.failed) :
    Lively { threads.notifyAll with
      core := (core.takeSnapshot feedbackSteps outcome).2 } := by
  have hstart := hlively.origin
  refine ⟨?_, ?_, nofun, ?_, nofun, ?_⟩
  · cases outcome with
    | raised =>
      change core.chunkOriginStep ≤ core.completedSteps
      omega
    | returned resetMask => exact le_refl _
  · intro hexchanging
    exact absurd (takeSnapshot_exchanging core feedbackSteps outcome)
      hexchanging
  · cases outcome with
    | raised =>
      intro hreset
      refine ⟨rfl, ?_, rfl⟩
      rcases hresetting hreset with hqueue | hresets
      · exact hqueue
      · cases hresets
    | returned resetMask =>
      intro hreset
      refine ⟨rfl, ?_, rfl⟩
      rcases hresetting hreset with hqueue | hresets
      · simp [ExecutorState.takeSnapshot, hqueue]
      · simp [ExecutorState.takeSnapshot, hresets]
  · intro hended
    have hbefore := hlively.controlEnded hended
    rw [← hinStep, ← hclosed, ← hfailed] at hbefore
    cases outcome with
    | raised | returned resetMask => exact hbefore

theorem Lively.gaveUp (hlively : Lively threads)
    (hawake : threads.exchangeAsleep = false) :
    Lively { threads with
      core := { threads.core with exchanging := none } } := by
  refine ⟨hlively.origin, fun hexchanging => absurd rfl hexchanging, ?_, ?_,
    hlively.controlAsleep, hlively.controlEnded⟩
  · intro hasleep
    rw [show threads.exchangeAsleep = true from hasleep] at hawake
    cases hawake
  · intro hresetting
    exact ⟨rfl, (hlively.resetting hresetting).2⟩

theorem Lively.popped {queued : QueuedAction A V}
    {rest : List (QueuedAction A V)} (hlively : Lively threads)
    (hqueue : threads.core.actionQueue = queued :: rest)
    (hmay : threads.core.mayPop)
    (hawake : threads.controlAsleep = false)
    (halive : threads.controlEnded = false) :
    Lively { threads with
      core := { threads.core with actionQueue := rest, inStep := true } } := by
  obtain ⟨_, hopen, hidle, _, _⟩ := hmay
  have hreplacement :
      threads.core.replacementStep = threads.core.completedSteps := by
    simp [ExecutorState.replacementStep, hidle]
  refine ⟨hlively.origin, ?_, hlively.exchangeAsleep, ?_, ?_, ?_⟩
  · intro hexchanging
    obtain ⟨target, hreach⟩ := hlively.exchange hexchanging
    refine ⟨target, hreach.returnTarget, hreach.running, ?_, ?_⟩
    · intro hfailed
      have hsupplied := hreach.supplied hfailed
      rw [hqueue, List.length_cons, hreplacement] at hsupplied
      simp only [ExecutorState.replacementStep, if_true]
      omega
    · intro _ hclosed
      rw [show threads.core.closed = true from hclosed] at hopen
      cases hopen
  · intro hresetting
    have hempty := (hlively.resetting hresetting).2.1
    simp [hqueue] at hempty
  · intro hasleep
    rw [show threads.controlAsleep = true from hasleep] at hawake
    cases hawake
  · intro hended
    rw [show threads.controlEnded = true from hended] at halive
    cases halive

theorem Lively.completed (hlively : Lively threads)
    (hinStep : threads.core.inStep = true) :
    Lively { threads.notifyAll with
      core := { threads.core with
        completedSteps := threads.core.completedSteps + 1
        inStep := false } } := by
  have hreplacement : threads.core.replacementStep =
      threads.core.completedSteps + 1 := by
    simp [ExecutorState.replacementStep, hinStep]
  refine ⟨?_, ?_, ?_, hlively.resetting, ?_, ?_⟩
  · exact hlively.origin.trans (Nat.le_succ _)
  · intro hexchanging
    obtain ⟨target, hreach⟩ := hlively.exchange hexchanging
    refine ⟨target, hreach.returnTarget, hreach.running, ?_, ?_⟩
    · intro hfailed
      have hsupplied := hreach.supplied hfailed
      rw [hreplacement] at hsupplied
      simpa [ExecutorState.replacementStep] using hsupplied
    · intro hfailed hclosed
      have hclosing := hreach.closing hfailed hclosed
      rw [hreplacement] at hclosing
      simpa [ExecutorState.replacementStep] using hclosing
  · intro hasleep
    cases hasleep
  · intro hasleep
    cases hasleep
  · intro hended
    rw [(hlively.controlEnded hended).1] at hinStep
    cases hinStep

theorem Lively.failed (hlively : Lively threads) :
    Lively { threads.notifyAll with
      controlEnded := true
      core := { threads.core with
        inStep := false
        failed := true
        paused := true } } := by
  refine ⟨hlively.origin, ?_, nofun, hlively.resetting, nofun, ?_⟩
  · intro hexchanging
    obtain ⟨target, hreach⟩ := hlively.exchange hexchanging
    exact ⟨target, hreach.returnTarget, nofun, nofun, nofun⟩
  · intro _
    exact ⟨rfl, .inr rfl⟩

theorem Lively.cleared (hlively : Lively threads) (resetAsleep : Bool)
    (hexchanging : core.exchanging = none)
    (horigin : core.chunkOriginStep ≤ core.completedSteps)
    (hqueue : core.actionQueue = []) (htarget : core.returnTarget = none)
    (hinStep : core.inStep = threads.core.inStep)
    (hclosed : core.closed = threads.core.closed)
    (hfailed : core.failed = threads.core.failed)
    (hidle : threads.core.exchanging = none) :
    Lively { threads with core := core, resetAsleep := resetAsleep } := by
  refine ⟨horigin, fun hsome => absurd hexchanging hsome, ?_, ?_, ?_, ?_⟩
  · intro hasleep
    exact absurd hidle (hlively.exchangeAsleep hasleep).1
  · intro _
    exact ⟨hexchanging, hqueue, htarget⟩
  · intro hasleep
    obtain ⟨hstep, hopen, _⟩ := hlively.controlAsleep hasleep
    exact ⟨hinStep.trans hstep, hclosed.trans hopen, .inr (.inl hqueue)⟩
  · intro hended
    have hbefore := hlively.controlEnded hended
    rw [← hinStep, ← hclosed, ← hfailed] at hbefore
    exact hbefore

theorem Lively.closes (hlively : Lively threads)
    (hallowed : CallAllowed config threads (.enter .close)) :
    Lively { threads.notifyAll with
      core := { threads.core with closed := true } } := by
  refine ⟨hlively.origin, ?_, nofun, hlively.resetting, nofun, ?_⟩
  · intro hexchanging
    obtain ⟨target, hreach⟩ := hlively.exchange hexchanging
    refine ⟨target, hreach.returnTarget, hreach.running, hreach.supplied, ?_⟩
    intro hfailed _
    exact hallowed hexchanging hfailed target hreach.returnTarget
  · intro hended
    exact ⟨(hlively.controlEnded hended).1, .inl rfl⟩

theorem Lively.step (hlively : Lively threads)
    (hallowed : CallAllowed config threads label)
    (hstep : (executorThreads A V config).step threads label =
      some (output, after)) :
    Lively after := by
  cases ThreadEffect.of_step hstep with
  | @enter _ _ core hmay hcore =>
    cases Effect.of_step hcore with
    | rejected hcheck => exact hlively
    | waits hcheck htarget => exact hlively.waits hallowed hcheck htarget
    | @immediate actions values outcome hcheck htarget =>
      have hcleared : (threads.core.replaceQueue config actions
          values).resetting = true →
          (threads.core.replaceQueue config actions
            values).actionQueue = [] ∨ outcome.resets = true :=
        fun hresetting => ((hallowed hcheck).1 hresetting).2
      rw [takeSnapshot_output]
      exact hlively.snapshot hcleared rfl rfl rfl rfl rfl
    | @returns outcome feedbackSteps target hexchanging hreturn htarget =>
      have hcleared : threads.core.resetting = true →
          threads.core.actionQueue = [] ∨ outcome.resets = true :=
        fun hresetting => .inl (hlively.resetting hresetting).2.1
      rw [takeSnapshot_output]
      exact hlively.snapshot hcleared rfl rfl rfl rfl rfl
    | gaveUp hexchanging =>
      apply hlively.gaveUp
      simpa [Threads.mayEnter] using hmay
    | popped hqueue hpop =>
      simp only [Threads.mayEnter, Bool.and_eq_true, Bool.not_eq_true'] at hmay
      exact hlively.popped hqueue hpop hmay.1 hmay.2
    | completed hinStep => exact hlively.completed hinStep
    | failed hinStep => exact hlively.failed
    | resetWaits hinStep =>
      exact hlively.cleared true hallowed hlively.origin rfl rfl rfl rfl
        rfl hallowed
    | resets hidle =>
      cases output with
      | waiting =>
        exact hlively.cleared true hallowed (le_refl _) rfl rfl rfl rfl
          rfl hallowed
      | _ =>
        exact hlively.cleared threads.resetAsleep hallowed (le_refl _)
          rfl rfl rfl rfl rfl hallowed
    | finishesReset hidle =>
      have hresetting : threads.core.resetting = true := by
        by_contra hnone
        simp [executor, hnone] at hcore
      obtain ⟨hnone, hqueue, htarget⟩ := hlively.resetting hresetting
      exact hlively.cleared threads.resetAsleep hnone (le_refl _) hqueue
        htarget rfl rfl rfl hnone
    | closes => exact hlively.closes hallowed
  | exchangeWait hawake hblocked =>
    exact { hlively with exchangeAsleep := fun _ => hblocked }
  | resetWait hawake hresetting hinStep => exact { hlively with }
  | controlWait hawake halive hidle hopen hblocked =>
    exact { hlively with controlAsleep := fun _ => ⟨hidle, hopen, hblocked⟩ }
  | controlEnd hawake halive hidle hclosed =>
    exact { hlively with controlEnded := fun _ => ⟨hidle, .inl hclosed⟩ }

end Preservation

end AsyncExecutor
end VerlVla
