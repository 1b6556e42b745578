import VerlVla.AsyncExecutor

/-!
# Temporal alignment of asynchronous chunks

The control ticks are numbered by the pops of a run.  In a run without reset
and close, the tick executed at time `t` is element `t - o` of the chunk of the
latest exchange, where `o` is the number of ticks that were complete when the
exchange before it returned.  `Tracked` relates the queue and the counters of a
state to the run that led to it.
-/

set_option linter.unusedSectionVars false

namespace VerlVla

open List hiding after cons head nil tail
namespace AsyncExecutor

open ActionChunk Transition

variable {A V : Type} [AddCommGroup A] [Module ℚ A]
  [AddCommGroup V] [Module ℚ V] {config : ExecutorConfig}

/-- An accepted exchange: where its chunk starts, the first tick it can still
change, and the actions it found in the queue. -/
structure Replacement (A : Type) where
  origin : ℕ
  start : ℕ
  chunk : List A
  previous : List A

def Replacement.plan (config : ExecutorConfig) (replacement : Replacement A) :
    List A :=
  let fresh := replacement.chunk.drop (replacement.start - replacement.origin)
  if config.smoothOverlappingActions ∧ replacement.previous ≠ [] then
    smoothActionChunkOverlap replacement.previous fresh
  else fresh

def replacementOf (config : ExecutorConfig) (event : ExecutorEvent A V) :
    Option (Replacement A) :=
  match event.label with
  | .exchange actions values _ =>
    if config.checkExchange event.before actions values = .ok () then
      some
        { origin := event.before.chunkOriginStep
          start := event.before.replacementStep
          chunk := config.prepareActions actions
          previous := event.before.queuedActions }
    else none
  | _ => none

def replacements (config : ExecutorConfig)
    (events : List (ExecutorEvent A V)) : List (Replacement A) :=
  events.filterMap (replacementOf config)

def isPop (event : ExecutorEvent A V) : Bool := match event.label with
  | .pop => true
  | _ => false

def isComplete (event : ExecutorEvent A V) : Bool := match event.label with
  | .complete => true
  | _ => false

def tick (events : List (ExecutorEvent A V)) : ℕ := events.countP isPop

def returnedAt (event : ExecutorEvent A V) : Option ℕ :=
  match event.output with
  | .snapshot _ (.returned _) => some event.before.completedSteps
  | _ => none

def lastReturn (events : List (ExecutorEvent A V)) : ℕ :=
  ((events.filterMap returnedAt).getLast?).getD 0

def uninterrupted : Label A V → Prop
  | .reset => False
  | .finishReset => False
  | .close => False
  | _ => True

instance (label : Label A V) : Decidable (uninterrupted label) := by
  unfold uninterrupted
  split <;> infer_instance

/-- The queue holds what is left of the plan, or a snapshot cleared it. -/
def OnPlan (config : ExecutorConfig) (state : ExecutorState A V) :
    Option (Replacement A) → Prop
  | none => state.actionQueue = []
  | some replacement =>
    replacement.origin ≤ replacement.start ∧
      replacement.start ≤ state.replacementStep ∧
      (state.actionQueue = [] ∨
        state.queuedActions = (replacement.plan config).drop
          (state.replacementStep - replacement.start))

structure Tracked (config : ExecutorConfig)
    (events : List (ExecutorEvent A V)) (state : ExecutorState A V) :
    Prop where
  completed : state.completedSteps = events.countP isComplete
  origin : state.chunkOriginStep = lastReturn events
  origin_le : state.chunkOriginStep ≤ state.completedSteps
  ticks : state.failed = false → tick events = state.replacementStep
  queue : state.failed = false →
    OnPlan config state (replacements config events).getLast?

theorem checkExchange_ok {state : ExecutorState A V}
    (hcheck : config.checkExchange state actions values = .ok ()) :
    values.length = actions.length ∧
      config.replanAfterSteps ≤ (config.prepareActions actions).length ∧
      state.failed = false ∧ state.returnTarget = none := by
  unfold ExecutorConfig.checkExchange ExecutorConfig.normalizeActionChunk
    at hcheck
  simp only [bind_eq_ok, require_eq_ok] at hcheck
  rcases hcheck with ⟨_, ⟨_, _, hvalues⟩, _, hsteps, _, hfailed, hreturn⟩
  exact ⟨hvalues, hsteps, hfailed, hreturn⟩

theorem queuedActions_replacementQueue (state : ExecutorState A V)
    (actions : List A) (values : List V) :
    (config.replacementQueue state actions values).map (·.action) =
      config.replacementActions state actions := by
  apply ext_getElem?
  intro index
  simp [ExecutorConfig.replacementQueue, getElem?_mapIdx, Function.comp_def]

theorem completedSteps_le_replacementStep (state : ExecutorState A V) :
    state.completedSteps ≤ state.replacementStep := by
  unfold ExecutorState.replacementStep
  omega

/-! ## Appending an event -/

theorem replacements_snoc (events : List (ExecutorEvent A V))
    (event : ExecutorEvent A V) :
    replacements config (events ++ [event]) =
      replacements config events ++ (replacementOf config event).toList := by
  unfold replacements
  rw [filterMap_append]
  cases hevent : replacementOf config event <;> simp [hevent]

theorem latest_snoc (events : List (ExecutorEvent A V))
    (event : ExecutorEvent A V) :
    (replacements config (events ++ [event])).getLast? =
      (replacementOf config event).or
        (replacements config events).getLast? := by
  rw [replacements_snoc, getLast?_append]
  cases replacementOf config event <;> rfl

theorem lastReturn_snoc (events : List (ExecutorEvent A V))
    (event : ExecutorEvent A V) :
    lastReturn (events ++ [event]) =
      (returnedAt event).getD (lastReturn events) := by
  unfold lastReturn
  rw [filterMap_append, getLast?_append]
  cases hevent : returnedAt event <;> simp [hevent]

theorem OnPlan.takeSnapshot {state : ExecutorState A V}
    (honPlan : OnPlan config state latest) (feedbackSteps : ℕ)
    (outcome : SnapshotOutcome) :
    OnPlan config (state.takeSnapshot feedbackSteps outcome).2 latest := by
  have hqueue : (state.takeSnapshot feedbackSteps outcome).2.actionQueue = [] ∨
      (state.takeSnapshot feedbackSteps outcome).2.actionQueue =
        state.actionQueue := by
    cases outcome with
    | raised => exact .inr rfl
    | returned resetMask =>
      simp only [ExecutorState.takeSnapshot]
      split_ifs
      · exact .inl rfl
      · exact .inr rfl
  have hstep : (state.takeSnapshot feedbackSteps outcome).2.replacementStep =
      state.replacementStep := by
    cases outcome <;> rfl
  cases latest with
  | none =>
    rcases hqueue with hempty | hsame
    · exact hempty
    · exact hsame.trans honPlan
  | some replacement =>
    rcases honPlan with ⟨horigin, hstart, hplan⟩
    refine ⟨horigin, by rwa [hstep], ?_⟩
    rcases hqueue with hempty | hsame
    · exact .inl hempty
    · rw [hsame, hstep]
      unfold ExecutorState.queuedActions at hplan ⊢
      rwa [hsame]

theorem OnPlan.replaceQueue (state : ExecutorState A V) (actions : List A)
    (values : List V)
    (horigin : state.chunkOriginStep ≤ state.completedSteps) :
    OnPlan config (state.replaceQueue config actions values) (some
        { origin := state.chunkOriginStep
          start := state.replacementStep
          chunk := config.prepareActions actions
          previous := state.queuedActions }) := by
  have hle := completedSteps_le_replacementStep state
  refine ⟨horigin.trans hle, le_refl _, .inr ?_⟩
  rw [show (state.replaceQueue config actions values).replacementStep =
    state.replacementStep from rfl, Nat.sub_self, drop_zero]
  rw [show (state.replaceQueue config actions values).queuedActions =
    (config.replacementQueue state actions values).map (·.action) from rfl,
    queuedActions_replacementQueue]
  unfold ExecutorConfig.replacementActions Replacement.plan
    ExecutorState.elapsedSteps ExecutorState.queuedActions
  simp

theorem tracked_initial : Tracked config [] (.initial : ExecutorState A V) := by
  constructor
  · rfl
  · rfl
  · exact le_refl _
  · intro _
    rfl
  · intro _
    rfl

theorem Tracked.snoc {events : List (ExecutorEvent A V)}
    {event : ExecutorEvent A V} (htracked : Tracked config events event.before)
    (hcompleted : event.after.completedSteps =
      event.before.completedSteps + if isComplete event then 1 else 0)
    (horigin : event.after.chunkOriginStep =
      (returnedAt event).getD event.before.chunkOriginStep)
    (horiginLe : event.after.chunkOriginStep ≤ event.after.completedSteps)
    (hfailed : event.after.failed = false → event.before.failed = false)
    (hticks : event.after.failed = false → event.after.replacementStep =
        event.before.replacementStep + if isPop event then 1 else 0)
    (hqueue : event.after.failed = false →
      ∀ latest, OnPlan config event.before latest → OnPlan config event.after
          ((replacementOf config event).or latest)) :
    Tracked config (events ++ [event]) event.after := by
  constructor
  · rw [hcompleted, htracked.completed, countP_append, countP_singleton]
  · rw [lastReturn_snoc, horigin, htracked.origin]
  · exact horiginLe
  · intro hafter
    have hbefore := htracked.ticks (hfailed hafter)
    unfold tick at hbefore ⊢
    rw [hticks hafter, ← hbefore, countP_append, countP_singleton]
  · intro hafter
    rw [latest_snoc]
    exact hqueue hafter _ (htracked.queue (hfailed hafter))

section Snapshot

variable (state : ExecutorState A V) (feedbackSteps : ℕ)
  (outcome : SnapshotOutcome)

@[simp] theorem takeSnapshot_completedSteps :
    (state.takeSnapshot feedbackSteps outcome).2.completedSteps =
      state.completedSteps := by
  cases outcome <;> rfl

@[simp] theorem takeSnapshot_failed :
    (state.takeSnapshot feedbackSteps outcome).2.failed = state.failed := by
  cases outcome <;> rfl

@[simp] theorem takeSnapshot_replacementStep :
    (state.takeSnapshot feedbackSteps outcome).2.replacementStep =
      state.replacementStep := by
  cases outcome <;> rfl

theorem takeSnapshot_chunkOriginStep (before : ExecutorState A V)
    (label : Label A V)
    (hcompleted : state.completedSteps = before.completedSteps)
    (horigin : state.chunkOriginStep = before.chunkOriginStep) :
    (state.takeSnapshot feedbackSteps outcome).2.chunkOriginStep =
      (returnedAt ⟨before, label, (state.takeSnapshot feedbackSteps outcome).1,
        (state.takeSnapshot feedbackSteps outcome).2⟩).getD
          before.chunkOriginStep := by
  cases outcome with
  | raised => exact horigin
  | returned resetMask => exact hcompleted

theorem takeSnapshot_chunkOriginStep_le
    (horigin : state.chunkOriginStep ≤ state.completedSteps) :
    (state.takeSnapshot feedbackSteps outcome).2.chunkOriginStep ≤
      state.completedSteps := by
  cases outcome with
  | raised => exact horigin
  | returned resetMask => exact le_refl _

end Snapshot

theorem OnPlan.pop {state : ExecutorState A V}
    (honPlan : OnPlan config state latest)
    (hqueue : state.actionQueue = queued :: rest) :
    ∃ replacement, latest = some replacement ∧
      replacement.origin ≤ replacement.start ∧
      replacement.start ≤ state.replacementStep ∧
      (replacement.plan config)[state.replacementStep - replacement.start]? =
        some queued.action ∧
      rest.map (·.action) = (replacement.plan config).drop
        (state.replacementStep - replacement.start + 1) := by
  cases latest with
  | none =>
    rw [show state.actionQueue = [] from honPlan] at hqueue
    cases hqueue
  | some replacement =>
    rcases honPlan with ⟨horigin, hstart, hempty | hplan⟩
    · simp [hempty] at hqueue
    · unfold ExecutorState.queuedActions at hplan
      rw [hqueue, map_cons] at hplan
      refine ⟨replacement, rfl, horigin, hstart, ?_, ?_⟩
      · rw [← head?_drop, ← hplan]
        rfl
      · rw [← tail_drop, ← hplan]
        rfl

theorem replacementOf_accepted {before after : ExecutorState A V}
    {outcome : SnapshotOutcome}
    (hcheck : config.checkExchange before actions values = .ok ()) :
    replacementOf config
        ⟨before, .exchange actions values outcome, output, after⟩ =
      some
        { origin := before.chunkOriginStep
          start := before.replacementStep
          chunk := config.prepareActions actions
          previous := before.queuedActions } := by
  simp [replacementOf, hcheck]

theorem Effect.tracked {before after : ExecutorState A V} {label : Label A V}
    {output : Output A V} {events : List (ExecutorEvent A V)}
    (heffect : Effect config before label output after)
    (hlabel : uninterrupted label) (htracked : Tracked config events before) :
    Tracked config (events ++ [⟨before, label, output, after⟩]) after := by
  have horiginLe := htracked.origin_le
  have hle := completedSteps_le_replacementStep before
  cases heffect with
  | @rejected actions values outcome error hcheck =>
    apply htracked.snoc
    · rfl
    · rfl
    · exact horiginLe
    · exact id
    · exact fun _ => rfl
    · intro _ latest honPlan
      simpa [replacementOf, hcheck] using honPlan
  | @waits actions values outcome hcheck htarget =>
    apply htracked.snoc
    · rfl
    · rfl
    · exact horiginLe
    · exact id
    · exact fun _ => rfl
    · intro _ latest _
      rw [replacementOf_accepted hcheck, Option.some_or]
      exact OnPlan.replaceQueue before actions values horiginLe
  | @immediate actions values outcome hcheck htarget =>
    apply htracked.snoc
    · simp [isComplete, ExecutorState.replaceQueue]
    · exact takeSnapshot_chunkOriginStep _ _ _ before _ rfl rfl
    · rw [takeSnapshot_completedSteps]
      exact takeSnapshot_chunkOriginStep_le _ _ _ horiginLe
    · rw [takeSnapshot_failed]
      exact id
    · intro _
      rw [takeSnapshot_replacementStep]
      rfl
    · intro _ latest _
      rw [replacementOf_accepted hcheck, Option.some_or]
      exact (OnPlan.replaceQueue before actions values
        horiginLe).takeSnapshot ..
  | @returns outcome feedbackSteps target hexchanging hreturn htarget =>
    apply htracked.snoc
    · simp [isComplete]
    · exact takeSnapshot_chunkOriginStep _ _ _ before _ rfl rfl
    · rw [takeSnapshot_completedSteps]
      exact takeSnapshot_chunkOriginStep_le _ _ _ horiginLe
    · rw [takeSnapshot_failed]
      exact id
    · intro _
      rw [takeSnapshot_replacementStep]
      rfl
    · exact fun _ latest honPlan => honPlan.takeSnapshot ..
  | gaveUp hexchanging =>
    apply htracked.snoc
    · rfl
    · rfl
    · exact horiginLe
    · exact id
    · exact fun _ => rfl
    · intro _ latest honPlan
      cases latest <;> exact honPlan
  | @popped queued rest hqueue hmay =>
    have hidle : before.replacementStep = before.completedSteps := by
      simp [ExecutorState.replacementStep, hmay.2.2.1]
    apply htracked.snoc
    · rfl
    · rfl
    · exact horiginLe
    · exact id
    · intro _
      rw [hidle]
      rfl
    · intro _ latest honPlan
      rcases honPlan.pop hqueue with
        ⟨replacement, rfl, horigin, hstart, _, hrest⟩
      have hnext : ({ before with actionQueue := rest, inStep := true } :
          ExecutorState A V).replacementStep = before.replacementStep + 1 := by
        rw [hidle]
        rfl
      refine ⟨horigin, ?_, .inr ?_⟩
      · rw [hnext]
        exact Nat.le_succ_of_le hstart
      · rw [hnext, Nat.sub_add_comm hstart]
        exact hrest
  | completed hstep =>
    have hsame : ({ before with
          completedSteps := before.completedSteps + 1
          inStep := false } : ExecutorState A V).replacementStep =
        before.replacementStep := by
      simp [ExecutorState.replacementStep, hstep]
    apply htracked.snoc
    · rfl
    · rfl
    · dsimp only
      omega
    · exact id
    · exact fun _ => hsame
    · intro _ latest honPlan
      cases latest with
      | none => exact honPlan
      | some replacement =>
        rcases honPlan with ⟨horigin, hstart, hplan⟩
        refine ⟨horigin, by rwa [hsame], ?_⟩
        rw [hsame]
        exact hplan
  | failed hstep =>
    apply htracked.snoc
    · rfl
    · rfl
    · exact horiginLe
    · exact nofun
    · exact nofun
    · exact nofun
  | resetWaits _ | resets _ | finishesReset _ | closes => exact hlabel.elim

/-! ## Supply -/

/-- The executor can still reach the target of a waiting exchange. -/
def Supplied (state : ExecutorState A V) : Prop :=
  state.failed = false → state.exchanging ≠ none →
    ∀ target ∈ state.returnTarget,
      target ≤ state.replacementStep + state.actionQueue.length

theorem length_replacementQueue (config : ExecutorConfig)
    (state : ExecutorState A V) (actions : List A) (values : List V) :
    (config.replacementQueue state actions values).length =
      (config.prepareActions actions).length - state.elapsedSteps := by
  unfold ExecutorConfig.replacementQueue ExecutorConfig.replacementActions
  rw [length_mapIdx]
  split_ifs <;> simp

theorem Effect.supplied {before after : ExecutorState A V}
    (heffect : Effect config before label output after)
    (horigin : before.chunkOriginStep ≤ before.completedSteps)
    (hlabel : uninterrupted label) (hsupplied : Supplied before) :
    Supplied after := by
  intro hfailed hexchanging target htarget
  cases heffect with
  | rejected _ => exact hsupplied hfailed hexchanging target htarget
  | @waits actions values outcome hcheck hlow =>
    have hsteps := (checkExchange_ok hcheck).2.1
    have hlength := length_replacementQueue config before actions values
    have hle := completedSteps_le_replacementStep before
    have heq : config.target before = target := by
      simpa [ExecutorState.replaceQueue] using htarget
    change target ≤ before.replacementStep +
      (config.replacementQueue before actions values).length
    unfold ExecutorConfig.target at heq
    unfold ExecutorState.elapsedSteps at hlength
    omega
  | immediate _ _ | returns _ _ _ =>
    exact absurd (takeSnapshot_exchanging ..) hexchanging
  | gaveUp _ => exact absurd rfl hexchanging
  | @popped queued rest hqueue hmay =>
    have hbefore := hsupplied hfailed hexchanging target htarget
    rw [hqueue, length_cons] at hbefore
    simp only [ExecutorState.replacementStep, hmay.2.2.1] at hbefore ⊢
    simp only [Bool.false_eq_true, if_false, if_true] at hbefore ⊢
    omega
  | completed hstep =>
    have hbefore := hsupplied hfailed hexchanging target htarget
    simp only [ExecutorState.replacementStep, hstep] at hbefore ⊢
    simpa using hbefore
  | failed _ => cases hfailed
  | resetWaits _ | resets _ | finishesReset _ | closes => exact hlabel.elim

theorem ExecutorRun.tracked {events : List (ExecutorEvent A V)}
    {final : ExecutorState A V} (hrun : ExecutorRun config events final)
    (huninterrupted : ∀ event ∈ events, uninterrupted event.label) :
    Tracked config events final ∧ Supplied final := by
  induction hrun with
  | nil =>
    refine ⟨tracked_initial, ?_⟩
    intro _ hexchanging
    exact absurd rfl hexchanging
  | @snoc state next prior label output _ hstep ih =>
    have hprior := ih fun event hevent =>
      huninterrupted event (mem_append_left _ hevent)
    have hlabel : uninterrupted label :=
      huninterrupted ⟨state, label, output, next⟩ (by simp)
    have heffect := Effect.of_step hstep
    constructor
    · exact heffect.tracked hlabel hprior.1
    · exact heffect.supplied hprior.1.origin_le hlabel hprior.2

/-! ## The alignment of a run -/

/-- The executed action is the element of the chunk for its tick, blended with
the action that the exchange found queued for the same tick. -/
def Executes (config : ExecutorConfig) (replacement : Replacement A)
    (time : ℕ) (action : A) : Prop :=
  ∃ element, replacement.chunk[time - replacement.origin]? = some element ∧
    if config.smoothOverlappingActions then
      match replacement.previous[time - replacement.start]? with
      | none => action = element
      | some queued => ∃ weight : ℚ, 0 ≤ weight ∧ weight ≤ 1 ∧
          action = blend weight queued element
    else action = element

structure Alignment (config : ExecutorConfig)
    (events : List (ExecutorEvent A V)) (final : ExecutorState A V) :
    Prop where
  /-- Every popped tick is aligned with the latest exchange before it. -/
  executed : ∀ left popped right, events = left ++ popped :: right →
    popped.label = .pop →
    ∃ queued replacement, popped.output = .popped queued ∧
      (replacements config left).getLast? = some replacement ∧
      replacement.origin ≤ replacement.start ∧
      replacement.start ≤ tick left ∧
      Executes config replacement (tick left) queued.action
  /-- A chunk starts where the exchange before it returned. -/
  origin : ∀ left exchange right replacement,
    events = left ++ exchange :: right →
    replacementOf config exchange = some replacement →
    replacement.origin = lastReturn left ∧ replacement.start = tick left
  completed : final.completedSteps = events.countP isComplete
  /-- The elements of one chunk are executed in increasing order, and no chunk
  is used again after the next exchange. -/
  increasing : ∀ left first middle second right firstChunk secondChunk,
    events = left ++ first :: (middle ++ second :: right) →
    first.label = .pop → second.label = .pop →
    (replacements config left).getLast? = some firstChunk →
    (replacements config (left ++ first :: middle)).getLast? =
      some secondChunk →
    (replacements config left).length <
        (replacements config (left ++ first :: middle)).length ∨
      firstChunk = secondChunk ∧ tick left - firstChunk.origin <
          tick (left ++ first :: middle) - secondChunk.origin
  /-- A waiting exchange finds enough queued or in-flight actions. -/
  supplied : final.failed = false → final.exchanging ≠ none →
    ∀ target ∈ final.returnTarget,
      target ≤ final.replacementStep + final.actionQueue.length ∧
      (final.completedSteps < target →
        final.inStep = true ∨ final.actionQueue ≠ [])

theorem Replacement.executes_of_plan {replacement : Replacement A}
    (horigin : replacement.origin ≤ replacement.start)
    (hstart : replacement.start ≤ time)
    (hplan : (replacement.plan config)[time - replacement.start]? =
      some action) : Executes config replacement time action := by
  have hindex : replacement.start - replacement.origin +
      (time - replacement.start) = time - replacement.origin := by
    omega
  unfold plan at hplan
  split_ifs at hplan with hsmooth
  · rcases smoothActionChunkOverlap_getElem hplan with
      ⟨element, helement, hblend⟩
    rw [Option.mem_def, getElem?_drop, hindex] at helement
    refine ⟨element, helement, ?_⟩
    rw [if_pos hsmooth.1]
    exact hblend
  · rw [getElem?_drop, hindex] at hplan
    refine ⟨action, hplan, ?_⟩
    split_ifs with hon
    · have hempty : replacement.previous = [] := by
        by_contra hprevious
        exact hsmooth ⟨hon, hprevious⟩
      rw [hempty]
      rfl
    · rfl

theorem ExecutorRun.executed {left right : List (ExecutorEvent A V)}
    {popped : ExecutorEvent A V} {final : ExecutorState A V}
    (hrun : ExecutorRun config (left ++ popped :: right) final)
    (huninterrupted : ∀ event ∈ left, uninterrupted event.label)
    (hpop : popped.label = .pop) :
    ∃ queued replacement, popped.output = .popped queued ∧
      (replacements config left).getLast? = some replacement ∧
      replacement.origin ≤ replacement.start ∧
      replacement.start ≤ tick left ∧
      Executes config replacement (tick left) queued.action := by
  have hcut := hrun.at_event
  have htracked := (ExecutorRun.tracked hcut.1 huninterrupted).1
  rcases popped with ⟨before, label, output, after⟩
  dsimp only at hcut htracked hpop
  subst hpop
  have heffect := Effect.of_step hcut.2.1
  cases heffect with
  | @popped queued rest hqueue hmay =>
    have honPlan := htracked.queue hmay.1
    rcases honPlan.pop hqueue with
      ⟨replacement, hlatest, horigin, hstart, hplan, _⟩
    rw [← htracked.ticks hmay.1] at hstart hplan
    exact ⟨queued, replacement, rfl, hlatest, horigin, hstart,
      Replacement.executes_of_plan horigin hstart hplan⟩

theorem ExecutorRun.origin {left right : List (ExecutorEvent A V)}
    {exchange : ExecutorEvent A V} {final : ExecutorState A V}
    {replacement : Replacement A}
    (hrun : ExecutorRun config (left ++ exchange :: right) final)
    (huninterrupted : ∀ event ∈ left, uninterrupted event.label)
    (hreplacement : replacementOf config exchange = some replacement) :
    replacement.origin = lastReturn left ∧ replacement.start = tick left := by
  have htracked := (ExecutorRun.tracked hrun.at_event.1 huninterrupted).1
  unfold replacementOf at hreplacement
  split at hreplacement
  next actions values outcome hlabel =>
    split_ifs at hreplacement with hcheck
    cases hreplacement
    have hfailed := (checkExchange_ok hcheck).2.2.1
    constructor
    · exact htracked.origin
    · exact (htracked.ticks hfailed).symm
  next => cases hreplacement

theorem tick_append_pop {left middle : List (ExecutorEvent A V)}
    {first : ExecutorEvent A V} (hpop : first.label = .pop) :
    tick left < tick (left ++ first :: middle) := by
  have hfirst : isPop first = true := by
    unfold isPop
    rw [hpop]
  unfold tick
  rw [countP_append, countP_cons_of_pos hfirst]
  omega

/-- Every run without reset and close is aligned. -/
theorem async_alignment {events : List (ExecutorEvent A V)}
    {final : ExecutorState A V} (hrun : ExecutorRun config events final)
    (huninterrupted : ∀ event ∈ events, uninterrupted event.label) :
    Alignment config events final := by
  constructor
  · intro left popped right hevents hpop
    subst hevents
    exact ExecutorRun.executed hrun
      (fun event hevent => huninterrupted event
        (mem_append_left _ hevent)) hpop
  · intro left exchange right replacement hevents hreplacement
    subst hevents
    exact ExecutorRun.origin hrun
      (fun event hevent => huninterrupted event
        (mem_append_left _ hevent)) hreplacement
  · exact (ExecutorRun.tracked hrun huninterrupted).1.completed
  · intro left first middle second right firstChunk secondChunk hevents
      hfirst _ hfirstChunk hsecondChunk
    subst hevents
    have htick : tick left < tick (left ++ first :: middle) :=
      tick_append_pop hfirst
    rcases ExecutorRun.executed hrun
      (fun event hevent => huninterrupted event
        (mem_append_left _ hevent)) hfirst with
      ⟨_, replacement, _, hlatest, horigin, hstart, _⟩
    have hsame : replacement = firstChunk := by
      rw [hlatest] at hfirstChunk
      exact Option.some_inj.mp hfirstChunk
    subst hsame
    have happend : replacements config (left ++ first :: middle) =
        replacements config left ++ replacements config (first :: middle) :=
      filterMap_append
    cases hmiddle : replacements config (first :: middle) with
    | nil =>
        right
        rw [happend, hmiddle, append_nil, hlatest] at hsecondChunk
        cases hsecondChunk
        refine ⟨rfl, ?_⟩
        omega
    | cons head tail =>
        left
        rw [happend, hmiddle, length_append, length_cons]
        omega
  · intro hfailed hexchanging target htarget
    have hsupplied := (ExecutorRun.tracked hrun huninterrupted).2
      hfailed hexchanging target htarget
    refine ⟨hsupplied, ?_⟩
    intro hlow
    by_contra hidle
    rw [not_or, not_not] at hidle
    rcases hidle with ⟨hstep, hempty⟩
    rw [hempty, length_nil] at hsupplied
    unfold ExecutorState.replacementStep at hsupplied
    rw [if_neg hstep] at hsupplied
    omega

/-- The second chunk is entered after two ticks of the first one. -/
def realignedLabels : List (Label ℚ ℚ) :=
  [.exchange [1, 2, 3] [0, 0, 0] (.returned [false]), .pop, .complete,
    .wake (.returned [false]), .pop, .complete,
    .exchange [4, 5, 6] [0, 0, 0] (.returned [false]), .pop]

theorem realigned_exec : (eagerExec realignedLabels).isSome := by
  decide +kernel

theorem async_alignment_realigned :
    let run := (eagerExec realignedLabels).get realigned_exec
    tick run.1 = 3 ∧ (replacements eagerConfig run.1).map (·.origin) = [0, 1] ∧
      Alignment eagerConfig run.1 run.2 := by
  refine ⟨by decide +kernel, by decide +kernel, ?_⟩
  apply async_alignment (eagerExec_run realigned_exec)
  decide +kernel

def raisedExchange : List (Label ℚ ℚ) := [.exchange [1] [0] .raised, .pop]

theorem raisedExchange_exec : (eagerExec raisedExchange).isSome := by
  decide +kernel

/-- The only queued tick is being executed while the exchange waits. -/
theorem waits_with_empty_queue : ∃ final : ExecutorState ℚ ℚ,
      (∃ events : List (ExecutorEvent ℚ ℚ), ExecutorRun eagerConfig events final) ∧
      final.exchanging ≠ none ∧ final.returnTarget = some 1 ∧
      final.completedSteps < 1 ∧ final.actionQueue.length = 0 := by
  refine ⟨_, ⟨_, eagerExec_run raisedExchange_exec⟩, ?_⟩
  decide +kernel

end AsyncExecutor
end VerlVla
