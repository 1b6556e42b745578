import VerlVla.AsyncAlignment

/-!
# The threads of the asynchronous executor

The critical sections of the executor, together with the wait set of its
condition variable.  A waiting thread takes its next section only after another
thread has called `notify_all`; a thread that finds its predicate still false
waits again.  `reset` notifies nobody.
-/

namespace VerlVla
namespace AsyncExecutor

open Transition

variable {A V : Type} [AddCommGroup A] [Module ℚ A] [AddCommGroup V]
  [Module ℚ V]

/-- The executor and its threads: the exchanging thread, the thread inside
`reset`, and the control thread, which ends at most once. -/
structure Threads (A V : Type) where
  core : ExecutorState A V
  exchangeAsleep : Bool
  resetAsleep : Bool
  controlAsleep : Bool
  controlEnded : Bool

inductive ThreadLabel (A V : Type)
  | enter (label : Label A V)
  | exchangeWait
  | resetWait
  | controlWait
  | controlEnd

/-- The predicate of the waiting loop of the control thread. -/
def ExecutorState.controlBlocked (state : ExecutorState A V) : Prop :=
  state.paused = true ∨ state.actionQueue = [] ∨
    ∃ target ∈ state.returnTarget, target ≤ state.completedSteps

instance (state : ExecutorState A V) : Decidable state.controlBlocked :=
  match hqueue : state.actionQueue, htarget : state.returnTarget with
  | [], _ => isTrue (.inr (.inl hqueue))
  | _ :: _, none =>
    decidable_of_iff (state.paused = true)
      (by simp [ExecutorState.controlBlocked, hqueue, htarget])
  | _ :: _, some target =>
    decidable_of_iff (state.paused = true ∨ target ≤ state.completedSteps)
      (by simp [ExecutorState.controlBlocked, hqueue, htarget])

/-- The predicate of the waiting loop of `exchange`. -/
def ExecutorState.exchangeBlocked (state : ExecutorState A V) : Prop :=
  state.exchanging ≠ none ∧ state.failed = false ∧
    ∃ target ∈ state.returnTarget, state.completedSteps < target

instance (state : ExecutorState A V) : Decidable state.exchangeBlocked :=
  match htarget : state.returnTarget with
  | none => isFalse (by simp [ExecutorState.exchangeBlocked, htarget])
  | some target =>
    decidable_of_iff (state.exchanging ≠ none ∧ state.failed = false ∧
        state.completedSteps < target)
      (by simp [ExecutorState.exchangeBlocked, htarget])

namespace Threads

/-- The control thread has been started, nobody else is there. -/
def initial : Threads A V where
  core := .initial
  exchangeAsleep := false
  resetAsleep := false
  controlAsleep := false
  controlEnded := false

def notifyAll (threads : Threads A V) : Threads A V := { threads with
    exchangeAsleep := false
    resetAsleep := false
    controlAsleep := false }

/-- The thread of the section is running. -/
def mayEnter (threads : Threads A V) : Label A V → Bool
  | .wake _ => !threads.exchangeAsleep
  | .pop => !threads.controlAsleep && !threads.controlEnded
  | .finishReset => !threads.resetAsleep
  | _ => true

/-- Who is woken by a section, and who waits after it. -/
def signal (threads : Threads A V) (label : Label A V)
    (output : Output A V) : Threads A V :=
  match label, output with
  | .exchange _ _ _, .waiting =>
    { threads.notifyAll with exchangeAsleep := true }
  | .exchange _ _ _, .snapshot _ _ => threads.notifyAll
  | .wake _, .snapshot _ _ => threads.notifyAll
  | .complete, _ => threads.notifyAll
  | .fail, _ => { threads.notifyAll with controlEnded := true }
  | .reset, .waiting => { threads with resetAsleep := true }
  | .close, _ => threads.notifyAll
  | _, _ => threads

def step (config : ExecutorConfig) (threads : Threads A V) :
    ThreadLabel A V → Option (Output A V × Threads A V)
  | .enter label =>
    if threads.mayEnter label then
      match (executor A V config).step threads.core label with
      | none => none
      | some (output, next) =>
        some (output, { threads.signal label output with core := next })
    else none
  | .exchangeWait =>
    if threads.exchangeAsleep = false ∧ threads.core.exchangeBlocked then
      some (.done, { threads with exchangeAsleep := true })
    else none
  | .resetWait =>
    if threads.resetAsleep = false ∧ threads.core.resetting = true ∧
        threads.core.inStep = true then
      some (.done, { threads with resetAsleep := true })
    else none
  | .controlWait =>
    if threads.controlAsleep = false ∧ threads.controlEnded = false ∧
        threads.core.inStep = false ∧ threads.core.closed = false ∧
        threads.core.controlBlocked then
      some (.done, { threads with controlAsleep := true })
    else none
  | .controlEnd =>
    if threads.controlAsleep = false ∧ threads.controlEnded = false ∧
        threads.core.inStep = false ∧ threads.core.closed = true then
      some (.done, { threads with controlEnded := true })
    else none

end Threads

def executorThreads (A V : Type) [AddCommGroup A] [Module ℚ A]
    [AddCommGroup V] [Module ℚ V] (config : ExecutorConfig) :
    Machine (Threads A V) (ThreadLabel A V) (Output A V) where
  step threads label := threads.step config label

abbrev ThreadEvent (A V : Type) :=
  Event (Threads A V) (ThreadLabel A V) (Output A V)

abbrev ThreadRun (config : ExecutorConfig) :
    List (ThreadEvent A V) → Threads A V → Prop :=
  Run (executorThreads A V config) .initial

/-- Sections that no caller has to start. -/
def ThreadLabel.isInternal : ThreadLabel A V → Bool
  | .enter (.exchange _ _ _) => false
  | .enter .reset => false
  | .enter .close => false
  | _ => true

/-! ## What a step of a thread does -/

inductive ThreadEffect (config : ExecutorConfig) (before : Threads A V) :
    ThreadLabel A V → Output A V → Threads A V → Prop
  | enter {label : Label A V} {output : Output A V} {core : ExecutorState A V}
      (hmay : before.mayEnter label = true)
      (hcore : (executor A V config).step before.core label =
        some (output, core)) :
      ThreadEffect config before (.enter label) output
        { before.signal label output with core := core }
  | exchangeWait (hawake : before.exchangeAsleep = false)
      (hblocked : before.core.exchangeBlocked) :
      ThreadEffect config before .exchangeWait .done
        { before with exchangeAsleep := true }
  | resetWait (hawake : before.resetAsleep = false)
      (hresetting : before.core.resetting = true)
      (hinStep : before.core.inStep = true) :
      ThreadEffect config before .resetWait .done
        { before with resetAsleep := true }
  | controlWait (hawake : before.controlAsleep = false)
      (halive : before.controlEnded = false)
      (hinStep : before.core.inStep = false)
      (hclosed : before.core.closed = false)
      (hblocked : before.core.controlBlocked) :
      ThreadEffect config before .controlWait .done
        { before with controlAsleep := true }
  | controlEnd (hawake : before.controlAsleep = false)
      (halive : before.controlEnded = false)
      (hinStep : before.core.inStep = false)
      (hclosed : before.core.closed = true) :
      ThreadEffect config before .controlEnd .done
        { before with controlEnded := true }

theorem ThreadEffect.of_step
    (hstep : (executorThreads A V config).step before label =
      some (output, after)) :
    ThreadEffect config before label output after := by
  simp only [executorThreads] at hstep
  cases label with
  | enter label =>
    simp only [Threads.step] at hstep
    by_cases hmay : before.mayEnter label = true
    · rw [if_pos hmay] at hstep
      cases hcore : (executor A V config).step before.core label with
      | none =>
        simp [hcore] at hstep
      | some result =>
        rw [hcore] at hstep
        cases hstep
        exact .enter hmay hcore
    · rw [if_neg hmay] at hstep
      cases hstep
  | exchangeWait =>
    simp only [Threads.step] at hstep
    split_ifs at hstep with hguard
    cases hstep
    exact .exchangeWait hguard.1 hguard.2
  | resetWait =>
    simp only [Threads.step] at hstep
    split_ifs at hstep with hguard
    cases hstep
    exact .resetWait hguard.1 hguard.2.1 hguard.2.2
  | controlWait =>
    simp only [Threads.step] at hstep
    split_ifs at hstep with hguard
    cases hstep
    exact .controlWait hguard.1 hguard.2.1 hguard.2.2.1 hguard.2.2.2.1
      hguard.2.2.2.2
  | controlEnd =>
    simp only [Threads.step] at hstep
    split_ifs at hstep with hguard
    cases hstep
    exact .controlEnd hguard.1 hguard.2.1 hguard.2.2.1 hguard.2.2.2

end AsyncExecutor
end VerlVla
