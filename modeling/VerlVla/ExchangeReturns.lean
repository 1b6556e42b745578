import VerlVla.ExchangeProgress

/-!
# Orderly calls let every exchange return

The sections that no caller starts use up a finite amount of work.  Together
with progress this bounds how long an exchange can wait.  Without orderly calls
a reset leaves a waiting exchange asleep, or wakes it without a return target,
and a close takes the control thread away from it.
-/

set_option linter.unusedSectionVars false

namespace VerlVla

open List hiding after nil
namespace AsyncExecutor

open Transition

variable {A V : Type} [AddCommGroup A] [Module ℚ A]
  [AddCommGroup V] [Module ℚ V] {config : ExecutorConfig}

/-! ## The remaining work -/

/-- The steps a waiting loop has left before it sleeps. -/
def waiterWork (present asleep : Bool) : ℕ :=
  if present then (if asleep then 1 else 2) else 0

/-- An exchange wakes two others when it leaves. -/
def exchangeWork (inside asleep : Bool) : ℕ :=
  if inside then (if asleep then 2 else 3) else 0

/-- A step wakes up to three waiting loops when it completes. -/
def ExecutorState.stepWork (state : ExecutorState A V) : ℕ :=
  5 * state.actionQueue.length + 4 * state.inStep.toNat

def Threads.work (threads : Threads A V) : ℕ := threads.core.stepWork +
    exchangeWork threads.core.exchanging.isSome threads.exchangeAsleep +
    waiterWork threads.core.resetting threads.resetAsleep +
    waiterWork (!threads.controlEnded) threads.controlAsleep

theorem waiterWork_awake_le (present asleep : Bool) :
    waiterWork present false ≤ waiterWork present asleep + 1 := by
  cases present <;> cases asleep <;> decide

theorem exchangeWork_awake_le (inside asleep : Bool) :
    exchangeWork inside false ≤ exchangeWork inside asleep + 1 := by
  cases inside <;> cases asleep <;> decide

theorem stepWork_takeSnapshot_le (state : ExecutorState A V)
    (feedbackSteps : ℕ) (outcome : SnapshotOutcome) :
    (state.takeSnapshot feedbackSteps outcome).2.stepWork ≤
      state.stepWork := by
  cases outcome with
  | raised => exact le_refl _
  | returned resetMask =>
    simp only [ExecutorState.stepWork, ExecutorState.takeSnapshot]
    cases (SnapshotOutcome.returned resetMask).resets <;> simp

theorem resetting_takeSnapshot (state : ExecutorState A V)
    (feedbackSteps : ℕ) (outcome : SnapshotOutcome) :
    (state.takeSnapshot feedbackSteps outcome).2.resetting =
      state.resetting := by
  cases outcome <;> rfl

variable {threads : Threads A V} {label : ThreadLabel A V}
  {state : ExecutorState A V}

theorem work_takeSnapshot_lt (outcome : SnapshotOutcome)
    (hexchanging : threads.core.exchanging = some feedbackSteps)
    (hawake : threads.exchangeAsleep = false) :
    ({ threads.notifyAll with
        core := (threads.core.takeSnapshot feedbackSteps outcome).2 } :
      Threads A V).work < threads.work := by
  have hstep := stepWork_takeSnapshot_le threads.core feedbackSteps outcome
  have hreset := waiterWork_awake_le threads.core.resetting threads.resetAsleep
  have hcontrol := waiterWork_awake_le (!threads.controlEnded)
    threads.controlAsleep
  simp only [Threads.work, Threads.notifyAll, hexchanging, hawake,
    takeSnapshot_exchanging, resetting_takeSnapshot, Option.isSome_none,
    Option.isSome_some, exchangeWork, if_true]
  simp only [Bool.false_eq_true, if_false]
  omega

theorem work_lt_of_internal (hinternal : label.isInternal = true)
    (hstep : (executorThreads A V config).step threads label =
      some (output, after)) :
    after.work < threads.work := by
  have hexchange := exchangeWork_awake_le threads.core.exchanging.isSome
    threads.exchangeAsleep
  have hreset := waiterWork_awake_le threads.core.resetting threads.resetAsleep
  have hcontrol := waiterWork_awake_le (!threads.controlEnded)
    threads.controlAsleep
  cases ThreadEffect.of_step hstep with
  | @enter _ _ core hmay hcore =>
    cases Effect.of_step hcore with
    | rejected hcheck | waits hcheck htarget | immediate hcheck htarget =>
      cases hinternal
    | @returns outcome feedbackSteps target hexchanging hreturn htarget =>
      rw [takeSnapshot_output]
      apply work_takeSnapshot_lt outcome hexchanging
      simpa [Threads.mayEnter] using hmay
    | gaveUp hexchanging =>
      simp only [Threads.mayEnter, Bool.not_eq_true'] at hmay
      simp [Threads.work, Threads.signal, ExecutorState.stepWork,
        exchangeWork, hexchanging, hmay]
    | popped hqueue hpop =>
      have hidle : threads.core.inStep = false := hpop.2.2.1
      simp only [Threads.work, Threads.signal, ExecutorState.stepWork,
        hqueue, hidle, length_cons, Bool.toNat_true,
        Bool.toNat_false]
      omega
    | completed hinStep =>
      simp only [Threads.work, Threads.signal, Threads.notifyAll,
        ExecutorState.stepWork, hinStep, Bool.toNat_true,
        Bool.toNat_false]
      omega
    | failed hinStep =>
      simp only [Threads.work, Threads.signal, Threads.notifyAll,
        ExecutorState.stepWork, hinStep, Bool.toNat_true,
        Bool.toNat_false, Bool.not_true]
      have hgone : waiterWork false false = 0 := rfl
      omega
    | resetWaits hinStep | resets hidle => cases hinternal
    | finishesReset hidle =>
      simp only [Threads.mayEnter, Bool.not_eq_true'] at hmay
      have hresetting : threads.core.resetting = true := by
        by_contra hnone
        simp [executor, hnone] at hcore
      simp only [Threads.work, Threads.signal, ExecutorState.stepWork,
        hresetting, hmay]
      have hgone : waiterWork false false = 0 := rfl
      have hwaiting : waiterWork true false = 2 := rfl
      omega
    | closes => cases hinternal
  | exchangeWait hawake hblocked =>
    have hinside := Option.isSome_iff_ne_none.mpr hblocked.1
    simp [Threads.work, hawake, hinside, exchangeWork]
  | resetWait hawake hresetting hinStep =>
    simp [Threads.work, hawake, hresetting, waiterWork]
  | controlWait hawake halive hidle hopen hblocked
  | controlEnd hawake halive hidle hclosed =>
    simp [Threads.work, hawake, halive, waiterWork]

theorem work_of_internal_run {last : Threads A V}
    {later : List (ThreadEvent A V)}
    (hrun : Run (executorThreads A V config) threads later last)
    (hinternal : ∀ event ∈ later, event.label.isInternal = true) :
    last.work + later.length ≤ threads.work := by
  induction hrun with
  | nil => exact le_refl _
  | snoc hprior hstep ih =>
    have hrest := ih fun event hevent =>
      hinternal event (mem_append_left _ hevent)
    have hlast := work_lt_of_internal (hinternal _
      (mem_append_right _ (mem_singleton_self _))) hstep
    rw [length_append, length_singleton]
    omega

/-! ## What a call raises -/

/-- The checks that `exchange` makes before it takes the lock pass. -/
def WellFormedChunk (config : ExecutorConfig) (actions : List A)
    (values : List V) : Prop :=
  0 < actions.length ∧ values.length = actions.length ∧
    config.replanAfterSteps ≤ (config.prepareActions actions).length

inductive Raised
  | executor (error : ExecutorError)
  | snapshotFunction
deriving DecidableEq

def Output.raises : Output A V → Option Raised
  | .raised error => some (.executor error)
  | .snapshot _ .raised => some .snapshotFunction
  | _ => none

/-- The executor's own `RuntimeError`: it has failed, or an exchange is in
progress. -/
def Raised.isRuntimeError : Raised → Bool
  | .executor .failed => true
  | .executor .exchangeInProgress => true
  | _ => false

/-- The exchange gets a malformed chunk, or its snapshot function raises. -/
def CallerFault (config : ExecutorConfig) : ThreadLabel A V → Prop
  | .enter (.exchange actions values outcome) =>
    ¬WellFormedChunk config actions values ∨ outcome = .raised
  | .enter (.wake outcome) => outcome = .raised
  | _ => False

theorem checkExchange_of_wellFormed
    (hwellFormed : WellFormedChunk config actions values)
    (hfailed : state.failed = false) (hreturn : state.returnTarget = none) :
    config.checkExchange state actions values = .ok () := by
  unfold ExecutorConfig.checkExchange ExecutorConfig.normalizeActionChunk
  simp only [bind_eq_ok, require_eq_ok]
  exact ⟨(), ⟨(), hwellFormed.1, hwellFormed.2.1⟩, (), hwellFormed.2.2, (),
    hfailed, hreturn⟩

theorem checkExchange_error
    (hcheck : config.checkExchange state actions values = .error error) :
    error = .failed ∨ error = .exchangeInProgress ∨
      ¬WellFormedChunk config actions values := by
  unfold ExecutorConfig.checkExchange ExecutorConfig.normalizeActionChunk
    at hcheck
  simp only [bind_eq_error, require_eq_error, require_eq_ok] at hcheck
  rcases hcheck with (⟨hempty, _⟩ | ⟨_, _, hshape, _⟩) |
    ⟨_, _, (⟨hshort, _⟩ | ⟨_, _, (⟨_, hfailed⟩ | ⟨_, _, _, hbusy⟩)⟩)⟩
  · exact .inr (.inr fun hwellFormed => hempty hwellFormed.1)
  · exact .inr (.inr fun hwellFormed => hshape hwellFormed.2.1)
  · exact .inr (.inr fun hwellFormed => hshort hwellFormed.2.2)
  · exact .inl hfailed.symm
  · exact .inr (.inl hbusy.symm)

theorem raises_of_snapshot (hraises : (Output.snapshot feedbackSteps outcome :
      Output A V).raises = some raised) : outcome = .raised := by
  cases outcome with
  | raised => rfl
  | returned resetMask => cases hraises

theorem failed_of_wake_raised (hreturn : state.returnTarget = some target)
    (hwake : state.wake outcome = some (.raised error, after)) :
    error = .failed ∧ state.failed = true := by
  unfold ExecutorState.wake at hwake
  cases hexchanging : state.exchanging with
  | none => simp [hexchanging] at hwake
  | some feedbackSteps =>
    simp only [hexchanging, hreturn] at hwake
    split_ifs at hwake with hlow hfailed
    · simp only [Option.some.injEq, Prod.mk.injEq,
        Output.raised.injEq] at hwake
      exact ⟨hwake.1.symm, hfailed⟩
    · rw [Option.some.injEq, Prod.ext_iff, takeSnapshot_output] at hwake
      cases hwake.1

theorem raises_of_finishReset
    (hraises : state.finishReset.1.raises = some raised) :
    raised.isRuntimeError = true := by
  simp only [ExecutorState.finishReset] at hraises
  split_ifs at hraises
  · cases hraises
    rfl
  · cases hraises

theorem Lively.raises (hlively : Lively threads)
    (hstep : (executorThreads A V config).step threads label =
      some (output, after)) (hraises : output.raises = some raised) :
    raised.isRuntimeError = true ∨ CallerFault config label := by
  cases ThreadEffect.of_step hstep with
  | @enter label _ core hmay hcore =>
    cases label with
    | exchange actions values outcome =>
      cases Effect.of_step hcore with
      | @rejected _ _ _ error hcheck =>
        cases hraises
        rcases checkExchange_error hcheck with rfl | rfl | hmalformed
        · exact .inl rfl
        · exact .inl rfl
        · exact .inr (.inl hmalformed)
      | waits hcheck htarget => cases hraises
      | immediate hcheck htarget =>
        rw [takeSnapshot_output] at hraises
        exact .inr (.inr (raises_of_snapshot hraises))
    | wake outcome =>
      cases Effect.of_step hcore with
      | returns hexchanging hreturn htarget =>
        rw [takeSnapshot_output] at hraises
        exact .inr (raises_of_snapshot hraises)
      | gaveUp hexchanging =>
        cases hraises
        obtain ⟨target, hreach⟩ := hlively.exchange (by simp [hexchanging])
        obtain ⟨rfl, _⟩ := failed_of_wake_raised hreach.returnTarget hcore
        exact .inl rfl
    | reset =>
      simp only [executor, ExecutorState.reset] at hcore
      split_ifs at hcore with hresetting hinStep
      · cases hcore
        cases hraises
      · simp only [Option.some.injEq, Prod.ext_iff] at hcore
        rw [← hcore.1] at hraises
        exact .inl (raises_of_finishReset hraises)
    | finishReset =>
      simp only [executor] at hcore
      split_ifs at hcore with hguard
      simp only [Option.some.injEq, Prod.ext_iff] at hcore
      rw [← hcore.1] at hraises
      exact .inl (raises_of_finishReset hraises)
    | pop | complete | fail | close =>
      cases Effect.of_step hcore
      cases hraises
  | exchangeWait hawake hblocked | resetWait hawake hresetting hinStep
  | controlWait hawake halive hidle hopen hblocked
  | controlEnd hawake halive hidle hclosed => cases hraises

/-! ## Every exchange returns -/

theorem callAllowed_of_internal (hinternal : label.isInternal = true) :
    CallAllowed config threads label := by
  cases label with
  | enter label => cases label <;> trivial
  | _ => trivial

theorem Lively.of_internal_run {last : Threads A V}
    {later : List (ThreadEvent A V)} (hlively : Lively threads)
    (hrun : Run (executorThreads A V config) threads later last)
    (hinternal : ∀ event ∈ later, event.label.isInternal = true) :
    Lively last := by
  apply hrun.guarded_invariant (CallAllowed config) Lively
  · intro state label output next hstate hallowed hstep
    exact hstate.step hallowed hstep
  · intro event hevent
    exact callAllowed_of_internal (hinternal event hevent)
  · exact hlively

/-- Only a caller can start a section. -/
def Quiescent (config : ExecutorConfig) (threads : Threads A V) : Prop :=
  ∀ label, label.isInternal = true →
    (executorThreads A V config).step threads label = none

/-- However the threads are scheduled from here on, they come to rest, and
then no exchange is inside. -/
def Settles (config : ExecutorConfig) (threads : Threads A V) : Prop :=
  ∀ later last, Run (executorThreads A V config) threads later last →
    (∀ event ∈ later, event.label.isInternal = true) →
    later.length ≤ threads.work ∧
      (Quiescent config last → last.core.exchanging = none)

theorem Lively.settles (hlively : Lively threads) :
    Settles config threads := by
  intro later last hrun hinternal
  have hwork := work_of_internal_run hrun hinternal
  have hlast := hlively.of_internal_run hrun hinternal
  constructor
  · omega
  · intro hquiescent
    by_contra hexchanging
    obtain ⟨label, hlabel, henabled⟩ :=
      @Lively.progress A V _ _ _ _ config last hlast hexchanging
    rw [hquiescent label hlabel] at henabled
    cases henabled

theorem Lively.answered {threads last : Threads A V} {feedbackSteps : ℕ}
    {later : List (ThreadEvent A V)} (hlively : Lively threads)
    (hexchanging : threads.core.exchanging = some feedbackSteps)
    (hfailed : threads.core.failed = false)
    (hrun : Run (executorThreads A V config) threads later last)
    (hinternal : ∀ event ∈ later, event.label.isInternal = true)
    (hsteps : ∀ event ∈ later, event.label ≠ .enter .fail) :
    (last.core.exchanging = some feedbackSteps ∧ last.core.failed = false) ∨
      ∃ event ∈ later, ∃ outcome,
        event.output = .snapshot feedbackSteps outcome := by
  induction hrun with
  | nil => exact .inl ⟨hexchanging, hfailed⟩
  | @snoc state next prior label output hprior hstep ih =>
    have hpriorInternal : ∀ event ∈ prior, event.label.isInternal = true :=
      fun event hevent => hinternal event (mem_append_left _ hevent)
    have hlabel : label.isInternal = true := hinternal _
      (mem_append_right _ (mem_singleton_self _))
    have hnoFail : label ≠ .enter .fail := hsteps _
      (mem_append_right _ (mem_singleton_self _))
    rcases ih hpriorInternal (fun event hevent =>
      hsteps event (mem_append_left _ hevent)) with
      ⟨hinside, hrunning⟩ | ⟨event, hevent, hanswer⟩
    · have hstate := hlively.of_internal_run hprior hpriorInternal
      cases ThreadEffect.of_step hstep with
      | @enter _ _ core hmay hcore =>
        cases Effect.of_step hcore with
        | @returns outcome _ target hsome hreturn htarget =>
          rw [hinside] at hsome
          cases hsome
          refine .inr ⟨_, mem_append_right _
            (mem_singleton_self _), outcome, ?_⟩
          exact takeSnapshot_output ..
        | gaveUp hsome =>
          obtain ⟨target, hreach⟩ := hstate.exchange (by simp [hinside])
          obtain ⟨_, hfail⟩ := failed_of_wake_raised hreach.returnTarget hcore
          simp [hrunning] at hfail
        | popped hqueue hpop | completed hinStep =>
          exact .inl ⟨hinside, hrunning⟩
        | failed hinStep => exact absurd rfl hnoFail
        | finishesReset hidle => exact .inl ⟨hinside, hrunning⟩
        | _ => cases hlabel
      | _ => exact .inl ⟨hinside, hrunning⟩
    · exact .inr ⟨event, mem_append_left _ hevent, hanswer⟩

/-- The exchange waits, and unless the step raises it returns a snapshot. -/
def NextExchangeWorks (config : ExecutorConfig) (threads : Threads A V) :
    Prop :=
  ∀ actions values outcome, WellFormedChunk config actions values →
    ∃ after, (executorThreads A V config).step threads
        (.enter (.exchange actions values outcome)) = some (.waiting, after) ∧
      Settles config after ∧
      ∀ later last, Run (executorThreads A V config) after later last →
        (∀ event ∈ later, event.label.isInternal = true) →
        (∀ event ∈ later, event.label ≠ .enter .fail) →
        Quiescent config last →
        ∃ event ∈ later, ∃ outcome,
          event.output = .snapshot actions.length outcome

structure Restarted (config : ExecutorConfig) (threads : Threads A V) :
    Prop where
  actionQueue : threads.core.actionQueue = []
  completedSteps : threads.core.completedSteps = 0
  chunkOriginStep : threads.core.chunkOriginStep = 0
  returnTarget : threads.core.returnTarget = none
  next : threads.core.closed = false → NextExchangeWorks config threads

theorem Lively.nextExchangeWorks
    (hlively : Lively threads) (hidle : threads.core.exchanging = none)
    (hresetting : threads.core.resetting = false)
    (hopen : threads.core.closed = false)
    (hfailed : threads.core.failed = false)
    (hreturn : threads.core.returnTarget = none)
    (hlow : threads.core.completedSteps < config.target threads.core) :
    NextExchangeWorks config threads := by
  intro actions values outcome hwellFormed
  have hcheck := checkExchange_of_wellFormed hwellFormed hfailed hreturn
  have hstep : (executorThreads A V config).step threads
      (.enter (.exchange actions values outcome)) = some (.waiting,
        { threads.notifyAll with
          exchangeAsleep := true
          core := { threads.core.replaceQueue config actions values with
            exchanging := some actions.length } }) := by
    simp [executorThreads, Threads.step, Threads.mayEnter, executor,
      ExecutorState.exchange, Threads.signal, hidle, hcheck, hlow]
  have hallowed : CallAllowed config threads
      (.enter (.exchange actions values outcome)) := by
    simp [CallAllowed, hresetting, hopen]
  have hafter := hlively.step hallowed hstep
  refine ⟨_, hstep, hafter.settles, ?_⟩
  intro later last hrun hinternal hsteps hquiescent
  have hleft := (hafter.settles later last hrun hinternal).2 hquiescent
  rcases hafter.answered rfl hfailed hrun hinternal hsteps with
    ⟨hinside, _⟩ | hanswer
  · simp [hleft] at hinside
  · exact hanswer

theorem failed_of_finishReset_done
    (hdone : state.finishReset.1 = .done) : state.failed = false := by
  simp only [ExecutorState.finishReset] at hdone
  split_ifs at hdone with hfailed
  simpa using hfailed

def resetReturned (event : ThreadEvent A V) : Bool :=
  match event.label, event.output with
  | .enter .reset, .done => true
  | .enter .finishReset, .done => true
  | _, _ => false

theorem of_resetReturned {event : ThreadEvent A V}
    (hreturned : resetReturned event = true) :
    (event.label = .enter .reset ∨ event.label = .enter .finishReset) ∧
      event.output = .done := by
  unfold resetReturned at hreturned
  split at hreturned
  next hlabel houtput => exact ⟨.inl hlabel, houtput⟩
  next hlabel houtput => exact ⟨.inr hlabel, houtput⟩
  next => cases hreturned

theorem Lively.restarted (hlively : Lively threads)
    (hallowed : CallAllowed config threads label)
    (hlabel : label = .enter .reset ∨ label = .enter .finishReset)
    (hstep : (executorThreads A V config).step threads label =
      some (.done, after)) :
    Restarted config after := by
  have hafter := hlively.step hallowed hstep
  have hreplan := config.replan_pos
  rcases hlabel with rfl | rfl
  · have hidle : threads.core.exchanging = none := hallowed
    cases ThreadEffect.of_step hstep with
    | @enter _ _ core hmay hcore =>
      have hfailed : threads.core.failed = false := by
        simp only [executor, ExecutorState.reset] at hcore
        split_ifs at hcore with hresetting hinStep
        · cases hcore
        · simp only [Option.some.injEq, Prod.ext_iff] at hcore
          exact failed_of_finishReset_done hcore.1
      cases Effect.of_step hcore with
      | resets hstop =>
        refine ⟨rfl, rfl, rfl, rfl, fun hopen => ?_⟩
        apply hafter.nextExchangeWorks hidle rfl hopen hfailed rfl
        change 0 < 0 + config.replanAfterSteps
        omega
  · cases ThreadEffect.of_step hstep with
    | @enter _ _ core hmay hcore =>
      simp only [executor] at hcore
      split_ifs at hcore with hguard
      simp only [Option.some.injEq, Prod.ext_iff] at hcore
      obtain ⟨hidle, hqueue, hreturn⟩ := hlively.resetting hguard.1
      have hfailed := failed_of_finishReset_done hcore.1
      have hcleared := hcore.2
      subst hcleared
      refine ⟨hqueue, rfl, rfl, hreturn, fun hopen => ?_⟩
      apply hafter.nextExchangeWorks hidle rfl hopen hfailed hreturn
      change 0 < 0 + config.replanAfterSteps
      omega

structure ExchangeClean (config : ExecutorConfig)
    (events : List (ThreadEvent A V)) (final : Threads A V) : Prop where
  raises : ∀ event ∈ events, ∀ raised, event.output.raises = some raised →
      raised.isRuntimeError = true ∨ CallerFault config event.label
  settles : Settles config final
  restarted : ∀ event ∈ events, resetReturned event = true →
    Restarted config event.after

theorem exchange_clean_of_orderly_calls {events : List (ThreadEvent A V)}
    {final : Threads A V} (hrun : ThreadRun config events final)
    (hallowed : ∀ event ∈ events,
      CallAllowed config event.before event.label) :
    ExchangeClean config events final := by
  have hpreserved : ∀ state label output next, Lively state →
      CallAllowed config state label →
      (executorThreads A V config).step state label = some (output, next) →
      Lively next :=
    fun _ _ _ _ hstate hcall hstep => hstate.step hcall hstep
  have hbefore : ∀ event ∈ events, Lively event.before :=
    fun event hevent => hrun.guarded_invariant_before (CallAllowed config)
      Lively hpreserved hallowed lively_initial hevent
  have hfinal : Lively final :=
    hrun.guarded_invariant (CallAllowed config) Lively hpreserved hallowed
      lively_initial
  constructor
  · intro event hevent raised hraises
    exact (hbefore event hevent).raises (hrun.step_of_mem hevent) hraises
  · exact hfinal.settles
  · intro event hevent hreturned
    obtain ⟨hlabel, hdone⟩ := of_resetReturned hreturned
    have hstep := hrun.step_of_mem hevent
    rw [hdone] at hstep
    exact (hbefore event hevent).restarted (hallowed event hevent) hlabel
      hstep

instance (threads : Threads A V) (label : ThreadLabel A V) :
    Decidable (CallAllowed config threads label) :=
  match label with
  | .enter (.exchange actions values outcome) =>
    match hcheck : config.checkExchange threads.core actions values with
    | .error _ => isTrue fun hok => by rw [hcheck] at hok; cases hok
    | .ok () =>
      decidable_of_iff ((threads.core.resetting = true →
          config.target threads.core ≤ threads.core.completedSteps ∧
            ((config.replacementQueue threads.core actions
              values).isEmpty = true ∨ outcome.resets = true)) ∧
          (threads.core.closed = true →
            config.target threads.core ≤ threads.core.replacementStep))
        (by simp [CallAllowed, hcheck])
  | .enter .reset =>
    inferInstanceAs (Decidable (threads.core.exchanging = none))
  | .enter .close =>
    inferInstanceAs (Decidable (threads.core.exchanging ≠ none →
      threads.core.failed = false → ∀ target ∈ threads.core.returnTarget,
          target ≤ threads.core.replacementStep))
  | .enter (.wake _) => isTrue trivial
  | .enter .pop => isTrue trivial
  | .enter .complete => isTrue trivial
  | .enter .fail => isTrue trivial
  | .enter .finishReset => isTrue trivial
  | .exchangeWait => isTrue trivial
  | .resetWait => isTrue trivial
  | .controlWait => isTrue trivial
  | .controlEnd => isTrue trivial

def eagerThreads (labels : List (ThreadLabel ℚ ℚ)) :
    Option (List (ThreadEvent ℚ ℚ) × Threads ℚ ℚ) :=
  (executorThreads ℚ ℚ eagerConfig).exec .initial labels

theorem eagerThreads_run (hexec : (eagerThreads labels).isSome) :
    ThreadRun eagerConfig ((eagerThreads labels).get hexec).1
      ((eagerThreads labels).get hexec).2 :=
  Machine.run_of_exec (Option.some_get hexec).symm

/-- Two exchanges around a reset; the step of the second one raises. -/
def orderlyLabels : List (ThreadLabel ℚ ℚ) :=
  [.controlWait, .enter (.exchange [1, 2] [0, 0] .raised), .enter .pop,
    .enter .complete, .enter (.wake (.returned [false])), .enter .pop,
    .enter .reset, .enter .complete, .enter .finishReset,
    .enter (.exchange [3, 4] [0, 0] .raised), .enter .pop, .enter .fail,
    .enter (.wake .raised), .enter .close]

theorem orderlyLabels_enabled : (eagerThreads orderlyLabels).isSome := by
  decide +kernel

theorem exchange_clean_of_orderly_calls_restarted :
    ∃ events, ∃ final : Threads ℚ ℚ, ThreadRun eagerConfig events final ∧
      events.length = 14 ∧ ExchangeClean eagerConfig events final := by
  have hrun := eagerThreads_run orderlyLabels_enabled
  refine ⟨_, _, hrun, by decide +kernel, ?_⟩
  exact exchange_clean_of_orderly_calls hrun (by decide +kernel)

/-! ## Calls that are not orderly -/

theorem quiescent_of_asleep (hexchange : threads.exchangeAsleep = true)
    (hcontrol : threads.controlAsleep = true ∨ threads.controlEnded = true)
    (hidle : threads.core.inStep = false)
    (hreset : threads.core.resetting = false) :
    Quiescent config threads := by
  intro label hinternal
  cases label with
  | enter label =>
    cases label with
    | exchange actions values outcome => cases hinternal
    | wake outcome =>
      simp [executorThreads, Threads.step, Threads.mayEnter, hexchange]
    | pop =>
      rcases hcontrol with hasleep | hended
      · simp [executorThreads, Threads.step, Threads.mayEnter, hasleep]
      · simp [executorThreads, Threads.step, Threads.mayEnter, hended]
    | complete =>
      simp [executorThreads, Threads.step, executor,
        ExecutorState.complete, hidle]
    | fail =>
      simp [executorThreads, Threads.step, executor, ExecutorState.fail, hidle]
    | reset => cases hinternal
    | finishReset =>
      simp [executorThreads, Threads.step, executor, hreset]
    | close => cases hinternal
  | exchangeWait => simp [executorThreads, Threads.step, hexchange]
  | resetWait => simp [executorThreads, Threads.step, hreset]
  | controlWait | controlEnd =>
    rcases hcontrol with hasleep | hended
    · simp [executorThreads, Threads.step, hasleep]
    · simp [executorThreads, Threads.step, hended]

def resetFirstLabels : List (ThreadLabel ℚ ℚ) :=
  [.enter (.exchange [1, 2] [0, 0] .raised), .enter .reset, .controlWait]

def resetInStepLabels : List (ThreadLabel ℚ ℚ) :=
  [.enter (.exchange [1, 2] [0, 0] .raised), .enter .pop, .enter .reset,
    .enter .complete, .enter .finishReset, .enter (.wake .raised)]

def closeFirstLabels : List (ThreadLabel ℚ ℚ) :=
  [.enter (.exchange [1, 2] [0, 0] .raised), .enter .close, .exchangeWait,
    .controlEnd]

/-- An exchange enters behind a reset that waits for the step in flight. -/
def exchangeBehindResetLabels : List (ThreadLabel ℚ ℚ) :=
  [.enter (.exchange [1, 2, 3] [0, 0, 0] .raised), .enter .pop,
    .enter .complete, .enter (.wake (.returned [false])), .enter .pop,
    .enter .reset, .enter (.exchange [5, 6] [0, 0] .raised),
    .enter .complete, .enter (.wake (.returned [false])),
    .enter .finishReset]

theorem resetFirst_enabled : (eagerThreads resetFirstLabels).isSome := by
  decide +kernel

theorem resetInStep_enabled : (eagerThreads resetInStepLabels).isSome := by
  decide +kernel

theorem closeFirst_enabled : (eagerThreads closeFirstLabels).isSome := by
  decide +kernel

theorem exchangeBehindReset_enabled :
    (eagerThreads exchangeBehindResetLabels).isSome := by
  decide +kernel

/-- An exchange sleeps for ever after a reset, and after a close; another one
compares its counter with no target; a reset returns with a queued action. -/
theorem exchange_left_behind :
    (∃ events, ∃ final : Threads ℚ ℚ, ThreadRun eagerConfig events final ∧
      final.core.exchanging ≠ none ∧ final.core.closed = false ∧
      Quiescent eagerConfig final) ∧
    (∃ events, ∃ final : Threads ℚ ℚ, ThreadRun eagerConfig events final ∧
      ∃ event ∈ events,
        event.output.raises = some (.executor .noReturnTarget)) ∧
    (∃ events, ∃ final : Threads ℚ ℚ, ThreadRun eagerConfig events final ∧
      final.core.exchanging ≠ none ∧ final.core.closed = true ∧
      Quiescent eagerConfig final) ∧
    (∃ events, ∃ final : Threads ℚ ℚ, ThreadRun eagerConfig events final ∧
      ∃ event ∈ events, resetReturned event = true ∧
        event.after.core.actionQueue.length = 1) := by
  refine ⟨⟨_, _, eagerThreads_run resetFirst_enabled, by decide +kernel,
      by decide +kernel, ?_⟩,
    ⟨_, _, eagerThreads_run resetInStep_enabled, by decide +kernel⟩,
    ⟨_, _, eagerThreads_run closeFirst_enabled, by decide +kernel,
      by decide +kernel, ?_⟩,
    ⟨_, _, eagerThreads_run exchangeBehindReset_enabled, by decide +kernel⟩⟩
  · apply quiescent_of_asleep <;> decide +kernel
  · apply quiescent_of_asleep <;> decide +kernel

end AsyncExecutor
end VerlVla
