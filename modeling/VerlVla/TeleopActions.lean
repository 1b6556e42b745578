import VerlVla.OperatorCommands

/-!
# The actions of the operators

Within a control tick an operator's action is read by one poll and executed
after a later one, or by the last step of the tick.  Every action that is read
is executed once and in order, except the one that was read while the action
before it ended the episode.
-/

namespace VerlVla

open List hiding cons nil
namespace BaseEnv

variable {n : ℕ} {A O : Type}

/-! ## The tick without its feedback -/

def startTick (env : EnvState n A O) (action : Fin n → A)
    (chunkIntervened : Mask n) : TickState n A where
  doneBeforeStep := env.done
  intervenedBeforeStep := chunkIntervened
  action := action
  isIntervened := noEnvs
  done := env.done
  manualReward := noEnvs
  forceTruncated := noEnvs
  restartEpisode := noEnvs
  chunkIntervened := chunkIntervened

def lastStep (env : EnvState n A O) (tick : TickState n A)
    (reply : Fin n → StepRow O) :
    Except (Raised n A O) (EnvState n A O × TickState n A) :=
  stepSelected env tick tick.executeMask tick.isIntervened reply

def teleopLoop (env : EnvState n A O) (tick : TickState n A)
    (reply : Fin n → StepRow O) : List (Poll n A O) →
    Except (Raised n A O) (EnvState n A O × TickState n A)
  | [] => lastStep env tick reply
  | poll :: polls =>
    let read := tick.readCommands poll
    if (read.interventionMask poll).any then do
      let next ← intervene env read poll
      teleopLoop next.1 next.2 reply polls
    else lastStep env read poll.reply

def stepWithTeleopAndRecording (env : EnvState n A O)
    (action : Fin n → A) (chunkIntervened : Mask n)
    (reply : Fin n → StepRow O) (polls : List (Poll n A O)) :
    Except (Raised n A O) (EnvState n A O × TickState n A) :=
  teleopLoop env (startTick env action chunkIntervened) reply polls

theorem stepWithTeleop_eq_bind : stepWithTeleop env tick reply polls =
      (teleopLoop env tick reply polls).bind
        fun next => publishStep next.1 next.2 := by
  induction polls generalizing env tick with
  | nil => rfl
  | cons poll polls ih =>
    unfold stepWithTeleop teleopLoop pollTeleops
    dsimp only
    by_cases hany : ((tick.readCommands poll).interventionMask poll).any
    · rw [if_pos hany, if_pos hany]
      cases hnext : intervene env (tick.readCommands poll) poll with
      | error raised => rfl
      | ok next => exact ih
    · rw [if_neg hany, if_neg hany]
      have hfinish : finishTick env (tick.readCommands poll) poll.reply =
          (lastStep env (tick.readCommands poll) poll.reply).bind
            fun next => publishStep next.1 next.2 := rfl
      rw [← hfinish]
      cases finishTick env (tick.readCommands poll) poll.reply with
      | error raised | ok next => rfl

theorem executeActionStep_eq_bind : executeActionStep env input chunkStarted =
      (stepWithTeleopAndRecording
        (beginTick env input.action chunkStarted).1 input.action
        (beginTick env input.action chunkStarted).1.chunkIntervened
        input.reply input.polls).bind fun next => publishStep next.1 next.2 :=
  stepWithTeleop_eq_bind

/-! ## What is executed for one environment -/

def executions (e : Fin n) (calls : List (BackendCall n A O)) :
    List (A × Bool) :=
  calls.filterMap fun call =>
    match call with
    | .step envIds action isIntervention _ _ =>
      if envIds e then some (action e, isIntervention e) else none
    | .reset _ => none

def BackendCall.steps (call : BackendCall n A O) (e : Fin n) : Bool :=
  match call with
  | .step envIds _ _ _ _ => envIds e
  | .reset _ => false

def BackendCall.ends (call : BackendCall n A O) (e : Fin n) : Bool :=
  match call with
  | .step envIds _ _ _ result => envIds e && (result e).done
  | .reset _ => false

def ended (e : Fin n) (calls : List (BackendCall n A O)) : Bool :=
  calls.any fun call => call.ends e

def StepsLive (e : Fin n) (doneBefore : Bool)
    (calls : List (BackendCall n A O)) : Prop :=
  ∀ earlier call later, calls = earlier ++ call :: later →
    call.steps e = true → doneBefore = false ∧ ended e earlier = false

/-- What `record_step_result` hands to the recorder for the environment, with
the flag that says that its episode was saved. -/
def recordStepResult (e : Fin n) (episodeDone : Bool) :
    List (BackendCall n A O) → List (A × Bool)
  | [] => []
  | .step envIds action isIntervention _ result :: calls =>
    if envIds e then
      if episodeDone then recordStepResult e episodeDone calls
      else (action e, isIntervention e) ::
        recordStepResult e (result e).done calls
    else recordStepResult e episodeDone calls
  | .reset envIds :: calls =>
    recordStepResult e (episodeDone && !envIds.contains e) calls

section Calls

variable {e : Fin n} {calls : List (BackendCall n A O)}
  {call : BackendCall n A O} {doneBefore : Bool}

theorem executions_append (first second : List (BackendCall n A O)) :
    executions e (first ++ second) =
      executions e first ++ executions e second :=
  filterMap_append

theorem ended_append (first second : List (BackendCall n A O)) :
    ended e (first ++ second) = (ended e first || ended e second) :=
  any_append

theorem executions_eq_nil (hnone : ∀ call ∈ calls, call.steps e = false) :
    executions e calls = [] := by
  unfold executions
  apply filterMap_eq_nil_iff.mpr
  intro call hcall
  have hcalled := hnone call hcall
  cases call with
  | step envIds action isIntervention reply result =>
    have hmask : envIds e = false := hcalled
    simp [hmask]
  | reset envIds => rfl

theorem StepsLive.nil : StepsLive e doneBefore
    ([] : List (BackendCall n A O)) := by
  intro earlier call later hsplit
  simp at hsplit

theorem StepsLive.cons (hcall : call.steps e = true → doneBefore = false)
    (hcalls : StepsLive e (doneBefore || call.ends e) calls) :
    StepsLive e doneBefore (call :: calls) := by
  intro earlier other later hsplit hother
  cases earlier with
  | nil =>
    cases hsplit
    exact ⟨hcall hother, rfl⟩
  | cons first earlier =>
    cases hsplit
    have hlive := hcalls earlier other later rfl hother
    rw [Bool.or_eq_false_iff] at hlive
    constructor
    · exact hlive.1.1
    · unfold ended at hlive ⊢
      rw [any_cons, hlive.1.2, hlive.2]
      rfl

theorem StepsLive.head (hlive : StepsLive e doneBefore (call :: calls))
    (hcall : call.steps e = true) : doneBefore = false :=
  (hlive [] call calls rfl hcall).1

theorem StepsLive.tail (hlive : StepsLive e doneBefore (call :: calls)) :
    StepsLive e (doneBefore || call.ends e) calls := by
  intro earlier other later hsplit hother
  have hnow := hlive (call :: earlier) other later
    (by rw [hsplit, cons_append]) hother
  have hended := hnow.2
  unfold ended at hended ⊢
  rw [any_cons, Bool.or_eq_false_iff] at hended
  constructor
  · rw [hnow.1, hended.1]
    rfl
  · exact hended.2

theorem recordStepResult_of_live (hlive : StepsLive e doneBefore calls)
    (hresets : ∀ envIds, BackendCall.reset envIds ∉ calls) :
    recordStepResult e doneBefore calls = executions e calls := by
  induction calls generalizing doneBefore with
  | nil => rfl
  | cons call calls ih =>
    have hrest : ∀ envIds, BackendCall.reset envIds ∉ calls :=
      fun envIds hmem => hresets envIds (mem_cons_of_mem _ hmem)
    have htail := ih hlive.tail hrest
    cases call with
    | step envIds action isIntervention reply result =>
      unfold recordStepResult
      by_cases hmask : envIds e = true
      · have hbefore := hlive.head hmask
        rw [hbefore] at htail
        simp only [BackendCall.ends, hmask, Bool.true_and,
          Bool.false_or] at htail
        rw [if_pos hmask, hbefore, htail]
        simp [executions, hmask]
      · have hoff : envIds e = false := by simpa using hmask
        simp only [BackendCall.ends, hoff, Bool.false_and,
          Bool.or_false] at htail
        rw [if_neg hmask, htail]
        simp [executions, hoff]
    | reset envIds => exact absurd mem_cons_self (hresets envIds)

theorem recordStepResult_saved
    (hresets : ∀ envIds, BackendCall.reset envIds ∉ calls) :
    recordStepResult e true calls = [] := by
  induction calls with
  | nil => rfl
  | cons call calls ih =>
    have hrest : ∀ envIds, BackendCall.reset envIds ∉ calls :=
      fun envIds hmem => hresets envIds (mem_cons_of_mem _ hmem)
    cases call with
    | step envIds action isIntervention reply result =>
      unfold recordStepResult
      by_cases hmask : envIds e = true
      · rw [if_pos hmask]
        exact ih hrest
      · rw [if_neg hmask]
        exact ih hrest
    | reset envIds => exact absurd mem_cons_self (hresets envIds)

end Calls

/-! ## The polls of a tick -/

/-- The actions of the operator that are read before the episode ends. -/
def delivered (e : Fin n) (tick : TickState n A) : List (Poll n A O) → List A
  | [] => []
  | poll :: polls =>
    if (tick.interventionMask poll).any then
      (if tick.done e then none else (poll.commands e).intervention).toList ++
          delivered e (polledTick tick poll) polls
    else []

def loopCalls (tick : TickState n A) :
    List (Poll n A O) → List (BackendCall n A O)
  | [] => []
  | poll :: polls =>
    if (tick.interventionMask poll).any then
      polledCalls tick poll ++ loopCalls (polledTick tick poll) polls
    else []

/-- The call after the loop, if any environment is left to step. -/
def finalCalls (tick : TickState n A) (reply : Fin n → StepRow O) :
    List (Poll n A O) → List (BackendCall n A O)
  | [] => selectedCalls tick tick.executeMask tick.isIntervened reply
  | poll :: polls =>
    if (tick.interventionMask poll).any then
      finalCalls (polledTick tick poll) reply polls
    else
      selectedCalls (tick.readCommands poll)
        (tick.readCommands poll).executeMask tick.isIntervened poll.reply

section Loop

variable {tick : TickState n A} {executeMask isIntervention : Mask n}
  {reply : Fin n → StepRow O} {e : Fin n}

def EnvState.Observed (env : EnvState n A O) : Prop :=
  n ≤ (env.latestObs.getD []).length

instance (env : EnvState n A O) : Decidable env.Observed :=
  inferInstanceAs (Decidable (_ ≤ _))

theorem stepSelected_observed (hobs : env.Observed) (tick : TickState n A)
    (executeMask isIntervention : Mask n) (reply : Fin n → StepRow O) :
    ∃ next : EnvState n A O × TickState n A,
      stepSelected env tick executeMask isIntervention reply = .ok next ∧
        next.1.Observed ∧ next.1.calls = env.calls ++
          selectedCalls tick executeMask isIntervention reply := by
  have hcalls : callsOf (stepSelected env tick executeMask isIntervention
      reply) = env.calls ++
        selectedCalls tick executeMask isIntervention reply :=
    callsOf_stepSelected
  unfold stepSelected at hcalls ⊢
  by_cases hany : executeMask.any
  · rw [if_pos hany] at hcalls ⊢
    have hcover : ∀ e : Fin n, executeMask e →
        e < (env.latestObs.getD []).length :=
      fun e _ => lt_of_lt_of_le e.isLt hobs
    have hok : ∃ next,
        maskStep env tick executeMask isIntervention reply = .ok next := by
      unfold maskStep
      dsimp only
      rw [require_of hcover]
      exact ⟨_, rfl⟩
    obtain ⟨⟨next, nextTick⟩, hnext⟩ := hok
    have hstate := (maskStep_eq_ok hnext).1
    rw [hnext] at hcalls
    constructor
    · constructor
      · exact hnext
      · constructor
        · have hobserved : next.latestObs = some (updateLatestObs
              (env.latestObs.getD []) executeMask
              (applyManualStepOverrides tick reply)) := by
            rw [hstate]
          unfold EnvState.Observed
          rw [hobserved, Option.getD_some, updateLatestObs, length_mapIdx]
          exact hobs
        · exact hcalls
  · rw [if_neg hany] at hcalls ⊢
    exact ⟨_, rfl, hobs, hcalls⟩

theorem teleopLoop_eq_ok (hobs : env.Observed) (tick : TickState n A)
    (reply : Fin n → StepRow O) (polls : List (Poll n A O)) :
    ∃ next : EnvState n A O × TickState n A,
      teleopLoop env tick reply polls = .ok next ∧ next.1.calls = env.calls ++
          (loopCalls tick polls ++ finalCalls tick reply polls) := by
  induction polls generalizing env tick with
  | nil =>
    obtain ⟨next, hnext, -, hcalls⟩ := stepSelected_observed hobs tick
      tick.executeMask tick.isIntervened reply
    exact ⟨next, hnext, hcalls⟩
  | cons poll polls ih =>
    have hread : (tick.readCommands poll).interventionMask poll =
        tick.interventionMask poll := rfl
    unfold teleopLoop loopCalls finalCalls
    dsimp only
    rw [hread]
    by_cases hany : (tick.interventionMask poll).any
    · rw [if_pos hany, if_pos hany, if_pos hany]
      obtain ⟨next, hnext, hobserved, hcalls⟩ :=
        stepSelected_observed hobs (tick.readCommands poll)
          (fun e => tick.isIntervened e && tick.interventionMask poll e)
          (tick.interventionMask poll) poll.reply
      have hintervene : intervene env (tick.readCommands poll) poll =
          .ok (next.1, polledTick tick poll) := by
        apply bind_eq_ok.mpr
        refine ⟨next, hnext, ?_⟩
        rw [stepSelected_tick hnext]
        rfl
      obtain ⟨last, hlast, hlastCalls⟩ := ih hobserved (polledTick tick poll)
      refine ⟨last, ?_, ?_⟩
      · rw [hintervene]
        exact hlast
      · rw [hlastCalls, hcalls, append_assoc, append_assoc]
        rfl
    · rw [if_neg hany, if_neg hany, if_neg hany]
      obtain ⟨next, hnext, -, hcalls⟩ :=
        stepSelected_observed hobs (tick.readCommands poll)
          (tick.readCommands poll).executeMask tick.isIntervened poll.reply
      exact ⟨next, hnext, hcalls⟩

theorem executions_selectedCalls :
    executions e (selectedCalls tick executeMask isIntervention reply) =
      if executeMask e then [(tick.action e, isIntervention e)] else [] := by
  unfold selectedCalls
  by_cases hmask : executeMask e = true
  · have hany : executeMask.any = true := any_iff.mpr ⟨e, hmask⟩
    rw [if_pos hany]
    simp [executions, hmask]
  · rw [if_neg hmask]
    apply executions_eq_nil
    intro call hcall
    split_ifs at hcall
    · rw [mem_singleton.mp hcall]
      simpa [BackendCall.steps] using hmask
    · cases hcall

theorem ended_selectedCalls :
    ended e (selectedCalls tick executeMask isIntervention reply) =
      (executeMask e && (applyManualStepOverrides tick reply e).done) := by
  unfold selectedCalls
  by_cases hany : executeMask.any = true
  · rw [if_pos hany]
    simp [ended, BackendCall.ends]
  · have hmask : executeMask e = false := by
      by_contra hselected
      exact hany (any_iff.mpr ⟨e, by simpa using hselected⟩)
    rw [if_neg hany, hmask]
    rfl

theorem mem_selectedCalls (hcall : call ∈
      selectedCalls tick executeMask isIntervention reply) :
    call = .step executeMask tick.action isIntervention reply
      (applyManualStepOverrides tick reply) := by
  unfold selectedCalls at hcall
  split_ifs at hcall
  · exact mem_singleton.mp hcall
  · cases hcall

theorem finalCalls_length : (finalCalls tick reply polls).length ≤ 1 := by
  have hselected : ∀ (tick : TickState n A) (executeMask isIntervention)
      (reply : Fin n → StepRow O),
      (selectedCalls tick executeMask isIntervention reply).length ≤ 1 := by
    intro tick executeMask isIntervention reply
    unfold selectedCalls
    split_ifs
    · exact le_refl 1
    · exact Nat.zero_le _
  induction polls generalizing tick with
  | nil => exact hselected _ _ _ _
  | cons poll polls ih =>
    unfold finalCalls
    by_cases hany : (tick.interventionMask poll).any
    · rw [if_pos hany]
      exact ih
    · rw [if_neg hany]
      exact hselected _ _ _ _

end Loop

/-! ## One environment in a tick -/

/-- The action that was read and not executed yet. -/
def TickState.pending (tick : TickState n A) (e : Fin n) : List A :=
  if tick.isIntervened e then [tick.action e] else []

def lastExecution (policy : A) (intervenedBefore : Bool)
    (requests : List A) : List (A × Bool) :=
  match requests.getLast? with
  | some action => [(action, true)]
  | none => if intervenedBefore then [] else [(policy, false)]

/-- The executions of an environment that starts a tick not done. -/
structure ActionsOnce (e : Fin n) (policy : A) (intervenedBefore : Bool)
    (requests : List A) (loop final : List (BackendCall n A O)) : Prop where
  looped : executions e loop =
    requests.dropLast.map fun action => (action, true)
  finished : executions e final = if ended e loop then []
    else lastExecution policy intervenedBefore requests
  live : StepsLive e false (loop ++ final)

section Lane

variable {tick : TickState n A} {poll : Poll n A O} {polls : List (Poll n A O)}
  {reply : Fin n → StepRow O} {e : Fin n}

theorem polledTick_done_of_done (poll : Poll n A O)
    (hdone : tick.done e = true) :
    (polledTick tick poll).done e = true := by
  have hread : (tick.readCommands poll).done e = true := hdone
  show ((tick.readCommands poll).done e || _) = true
  rw [hread, Bool.true_or]

theorem polledTick_done : (polledTick tick poll).done e =
    (tick.done e || ended e (polledCalls tick poll)) := by
  unfold polledCalls
  rw [ended_selectedCalls]
  rfl

theorem polledTick_of_live (hlive : (polledTick tick poll).done e = false) :
    (polledTick tick poll).action e =
        (poll.commands e).intervention.getD (tick.action e) ∧
      (polledTick tick poll).isIntervened e =
        (tick.isIntervened e || (poll.commands e).intervention.isSome) := by
  have hbefore : tick.done e = false := by
    rw [polledTick_done, Bool.or_eq_false_iff] at hlive
    exact hlive.1
  have hactive : (tick.interventionMask poll e &&
      !(polledTick tick poll).done e) =
        (poll.commands e).intervention.isSome := by
    unfold TickState.interventionMask
    rw [hlive, hbefore]
    simp
  constructor
  · show (if (tick.interventionMask poll e &&
      !(polledTick tick poll).done e) = true then _ else tick.action e) = _
    rw [hactive]
    cases (poll.commands e).intervention with
    | none | some action => rfl
  · show (tick.isIntervened e || (tick.interventionMask poll e &&
      !(polledTick tick poll).done e)) = _
    rw [hactive]

theorem resting_calls (polls : List (Poll n A O))
    (reply : Fin n → StepRow O) (hdone : tick.done e = true) :
    delivered e tick polls = [] ∧
      ∀ call ∈ loopCalls tick polls ++ finalCalls tick reply polls,
        call.steps e = false := by
  induction polls generalizing tick with
  | nil =>
    constructor
    · rfl
    · intro call hcall
      rw [mem_selectedCalls hcall]
      simp [BackendCall.steps, TickState.executeMask, hdone]
  | cons poll polls ih =>
    have hnext := ih (polledTick_done_of_done poll hdone)
    have hread : (tick.readCommands poll).done e = true := hdone
    unfold delivered loopCalls finalCalls
    by_cases hany : (tick.interventionMask poll).any
    · rw [if_pos hany, if_pos hany, if_pos hany, if_pos hdone]
      constructor
      · exact hnext.1
      · intro call hcall
        rw [append_assoc] at hcall
        cases mem_append.mp hcall with
        | inl hpolled =>
          rw [mem_selectedCalls hpolled]
          simp [BackendCall.steps, TickState.interventionMask, hdone]
        | inr hlater => exact hnext.2 call hlater
    · rw [if_neg hany, if_neg hany, if_neg hany]
      constructor
      · rfl
      · intro call hcall
        rw [mem_selectedCalls hcall]
        simp [BackendCall.steps, TickState.executeMask, hread]

theorem stepsLive_of_steps {doneBefore : Bool}
    {calls : List (BackendCall n A O)}
    (hnone : ∀ call ∈ calls, call.steps e = false) :
    StepsLive e doneBefore calls := by
  intro earlier call later hsplit hcall
  have hmem : call ∈ calls := by
    rw [hsplit]
    exact mem_append_right _ mem_cons_self
  rw [hnone call hmem] at hcall
  cases hcall

theorem stepsLive_selectedCalls_append (hcalls : StepsLive e
      (ended e (selectedCalls tick executeMask isIntervention reply))
      calls) :
    StepsLive e false
      (selectedCalls tick executeMask isIntervention reply ++ calls) := by
  unfold selectedCalls at hcalls ⊢
  by_cases hany : executeMask.any = true
  · rw [if_pos hany] at hcalls ⊢
    apply StepsLive.cons
    · intro _
      rfl
    · simpa [ended] using hcalls
  · rw [if_neg hany] at hcalls ⊢
    exact hcalls

theorem ActionsOnce.quiet (hlive : tick.done e = false) :
    ActionsOnce e (tick.action e) (tick.intervenedBeforeStep e)
      (tick.pending e) ([] : List (BackendCall n A O))
      (selectedCalls tick tick.executeMask tick.isIntervened reply) := by
  constructor
  · unfold TickState.pending
    split_ifs <;> rfl
  · rw [executions_selectedCalls]
    unfold TickState.executeMask TickState.pending lastExecution
    rw [hlive]
    cases htaken : tick.isIntervened e with
    | true => simp [ended]
    | false =>
      cases hearlier : tick.intervenedBeforeStep e with
      | true => simp
      | false => simp [ended]
  · have hrest : StepsLive e false (selectedCalls tick tick.executeMask
        tick.isIntervened reply ++ []) :=
      stepsLive_selectedCalls_append StepsLive.nil
    rw [append_nil] at hrest
    exact hrest

theorem ActionsOnce.skip
    (hskip : (tick.isIntervened e && tick.interventionMask poll e) = false)
    {requests : List A}
    (hnext : ActionsOnce e policy intervenedBefore requests loop final) :
    ActionsOnce e policy intervenedBefore requests
      (polledCalls tick poll ++ loop) final := by
  have hnone : executions e (polledCalls tick poll) = [] := by
    unfold polledCalls
    rw [executions_selectedCalls, hskip]
    rfl
  have hended : ended e (polledCalls tick poll) = false := by
    unfold polledCalls
    rw [ended_selectedCalls, hskip, Bool.false_and]
  constructor
  · rw [executions_append, hnone, nil_append]
    exact hnext.looped
  · rw [ended_append, hended, Bool.false_or]
    exact hnext.finished
  · rw [append_assoc]
    unfold polledCalls at hended ⊢
    apply stepsLive_selectedCalls_append
    rw [hended]
    exact hnext.live

theorem ActionsOnce.of_request {requests : List A}
    (hnext : ActionsOnce e policy intervenedBefore (request :: requests)
      loop final) (policy' : A) :
    ActionsOnce e policy' intervenedBefore (request :: requests)
      loop final := by
  constructor
  · exact hnext.looped
  · rw [hnext.finished]
    unfold lastExecution
    rw [getLast?_cons]
  · exact hnext.live

theorem ActionsOnce.execute (hmask : tick.interventionMask poll e = true)
    (htaken : tick.isIntervened e = true)
    (hended : ended e (polledCalls tick poll) = false) {requests : List A}
    (hnext : ActionsOnce e policy intervenedBefore (request :: requests)
      loop final) :
    ActionsOnce e policy' intervenedBefore
      (tick.action e :: request :: requests)
      (polledCalls tick poll ++ loop) final := by
  have hone : executions e (polledCalls tick poll) =
      [(tick.action e, true)] := by
    unfold polledCalls
    rw [executions_selectedCalls, hmask, htaken]
    rfl
  constructor
  · rw [executions_append, hone, hnext.looped, dropLast_cons_cons,
      map_cons, singleton_append]
  · rw [ended_append, hended, Bool.false_or, hnext.finished]
    unfold lastExecution
    rw [getLast?_cons_cons, getLast?_cons]
  · rw [append_assoc]
    unfold polledCalls at hended ⊢
    apply stepsLive_selectedCalls_append
    rw [hended]
    exact hnext.live

/-- The pending action is executed and ends the episode; the action that was
read before is left out. -/
theorem ActionsOnce.cut {loop final : List (BackendCall n A O)}
    (hmask : tick.interventionMask poll e = true)
    (htaken : tick.isIntervened e = true)
    (hended : ended e (polledCalls tick poll) = true)
    (hnone : ∀ call ∈ loop ++ final, call.steps e = false)
    (policy request : A) (intervenedBefore : Bool) :
    ActionsOnce e policy intervenedBefore [tick.action e, request]
      (polledCalls tick poll ++ loop) final := by
  have hone : executions e (polledCalls tick poll) =
      [(tick.action e, true)] := by
    unfold polledCalls
    rw [executions_selectedCalls, hmask, htaken]
    rfl
  have hloop : executions e loop = [] := executions_eq_nil fun call hcall =>
      hnone call (mem_append_left _ hcall)
  have hfinal : executions e final = [] := executions_eq_nil fun call hcall =>
      hnone call (mem_append_right _ hcall)
  constructor
  · rw [executions_append, hone, hloop]
    rfl
  · rw [ended_append, hended, hfinal]
    rfl
  · rw [append_assoc]
    exact stepsLive_selectedCalls_append (stepsLive_of_steps hnone)

theorem actionsOnce (polls : List (Poll n A O))
    (reply : Fin n → StepRow O) (hlive : tick.done e = false) :
    ActionsOnce e (tick.action e) (tick.intervenedBeforeStep e)
      (tick.pending e ++ delivered e tick polls) (loopCalls tick polls)
      (finalCalls tick reply polls) := by
  induction polls generalizing tick with
  | nil =>
    unfold delivered loopCalls finalCalls
    rw [append_nil]
    exact ActionsOnce.quiet hlive
  | cons poll polls ih =>
    have hread : (tick.readCommands poll).done e = false := hlive
    unfold delivered loopCalls finalCalls
    by_cases hany : (tick.interventionMask poll).any
    · rw [if_pos hany, if_pos hany, if_pos hany, hlive]
      have hdone : (polledTick tick poll).done e =
          (tick.done e || ended e (polledCalls tick poll)) :=
        polledTick_done
      rw [hlive, Bool.false_or] at hdone
      have hmask : tick.interventionMask poll e =
          (poll.commands e).intervention.isSome := by
        unfold TickState.interventionMask
        rw [hlive, Bool.not_false, Bool.and_true]
      cases hended : ended e (polledCalls tick poll) with
      | true =>
        have hexecuted := hended
        unfold polledCalls at hexecuted
        rw [ended_selectedCalls, Bool.and_eq_true,
          Bool.and_eq_true] at hexecuted
        obtain ⟨⟨htaken, hread⟩, -⟩ := hexecuted
        have hrest := resting_calls polls reply (hdone.trans hended)
        rw [hmask] at hread
        obtain ⟨request, hrequest⟩ := Option.isSome_iff_exists.mp hread
        rw [hrest.1, hrequest]
        unfold TickState.pending
        rw [if_pos htaken]
        exact ActionsOnce.cut (hmask.trans hread) htaken hended hrest.2
          _ request _
      | false =>
        have hnext := ih (hdone.trans hended)
        have hopen := polledTick_of_live (hdone.trans hended)
        unfold TickState.pending at hnext ⊢
        rw [hopen.1, hopen.2] at hnext
        cases hrequest : (poll.commands e).intervention with
        | none =>
          rw [hrequest] at hnext hmask
          rw [Option.isSome_none, Bool.or_false] at hnext
          apply ActionsOnce.skip
          · rw [hmask]
            exact Bool.and_false _
          · exact hnext
        | some request =>
          rw [hrequest] at hnext hmask
          rw [Option.isSome_some, Bool.or_true] at hnext
          cases htaken : tick.isIntervened e with
          | true => exact ActionsOnce.execute hmask htaken hended hnext
          | false =>
            apply ActionsOnce.skip
            · rw [htaken]
              rfl
            · exact hnext.of_request _
    · rw [if_neg hany, if_neg hany, if_neg hany, append_nil]
      exact ActionsOnce.quiet hread

end Lane

/-! ## A control tick -/

/-- What a tick executes for an environment: `requests` are the operator's
actions that were read before the episode ended, and `loop` and `final` the
calls in the loop and after it. -/
structure OperatorLaw (e : Fin n) (policy : A)
    (doneBefore intervenedBefore : Bool) (requests : List A)
    (loop final : List (BackendCall n A O)) : Prop where
  inOrder : ended e loop = false → executions e (loop ++ final) =
    if requests = [] then
      if doneBefore || intervenedBefore then [] else [(policy, false)]
    else requests.map fun action => (action, true)
  last : ended e loop = false → ∀ action, requests.getLast? = some action →
      executions e final = [(action, true)]
  cut : ended e loop = true →
    executions e loop = (requests.dropLast.map fun action => (action, true)) ∧
      executions e loop ≠ [] ∧ executions e final = []
  policyAction : ∀ action, (action, false) ∈ executions e (loop ++ final) →
    action = policy ∧ doneBefore = false ∧ intervenedBefore = false ∧
      requests = []
  live : StepsLive e doneBefore (loop ++ final)
  recorded : ∀ saved, recordStepResult e saved (loop ++ final) =
    if saved then [] else executions e (loop ++ final)

section Law

variable {e : Fin n} {requests : List A}
  {loop final : List (BackendCall n A O)}

theorem executions_ne_nil_of_ended (hended : ended e loop = true) :
    executions e loop ≠ [] := by
  unfold ended at hended
  obtain ⟨call, hcall, hends⟩ := any_eq_true.mp hended
  intro hnil
  unfold executions at hnil
  have hnone := filterMap_eq_nil_iff.mp hnil call hcall
  cases call with
  | step envIds action isIntervention reply result =>
    simp only [BackendCall.ends, Bool.and_eq_true] at hends
    simp [hends.1] at hnone
  | reset envIds => cases hends

theorem ActionsOnce.law
    (honce : ActionsOnce e policy intervenedBefore requests loop final)
    (hresets : ∀ envIds, BackendCall.reset envIds ∉ loop ++ final) :
    OperatorLaw e policy false intervenedBefore requests loop final := by
  have hfinished := honce.finished
  have hlooped := honce.looped
  constructor
  · intro hended
    rw [hended] at hfinished
    rw [executions_append, hlooped, hfinished]
    cases requests using reverseRecOn with
    | nil | append_singleton requests action => simp [lastExecution]
  · intro hended action haction
    rw [hfinished, hended, lastExecution, haction]
    rfl
  · intro hended
    rw [hended] at hfinished
    exact ⟨hlooped, executions_ne_nil_of_ended hended, hfinished⟩
  · intro action hmem
    rw [executions_append, mem_append] at hmem
    cases hmem with
    | inl hearly =>
      rw [hlooped] at hearly
      obtain ⟨request, -, hsame⟩ := mem_map.mp hearly
      cases hsame
    | inr hlate =>
      rw [hfinished] at hlate
      by_cases hended : ended e loop = true
      · rw [if_pos hended] at hlate
        cases hlate
      · rw [if_neg hended, lastExecution] at hlate
        cases hlast : requests.getLast? with
        | some request =>
          rw [hlast] at hlate
          simp at hlate
        | none =>
          rw [hlast] at hlate
          rw [getLast?_eq_none_iff] at hlast
          cases hearlier : intervenedBefore with
          | true =>
            rw [hearlier] at hlate
            simp at hlate
          | false =>
            rw [hearlier] at hlate
            simp at hlate
            exact ⟨hlate, rfl, rfl, hlast⟩
  · exact honce.live
  · intro saved
    cases saved with
    | true => exact recordStepResult_saved hresets
    | false => exact recordStepResult_of_live honce.live hresets

theorem operatorLaw_of_done
    (hnone : ∀ call ∈ loop ++ final, call.steps e = false)
    (hresets : ∀ envIds, BackendCall.reset envIds ∉ loop ++ final) :
    OperatorLaw e policy true intervenedBefore [] loop final := by
  have hexecuted : executions e (loop ++ final) = [] := executions_eq_nil hnone
  have hloop : executions e loop = [] := executions_eq_nil fun call hcall =>
      hnone call (mem_append_left _ hcall)
  constructor
  · intro _
    rw [hexecuted]
    rfl
  · exact nofun
  · intro hended
    exact absurd hloop (executions_ne_nil_of_ended hended)
  · intro action hmem
    simp [hexecuted] at hmem
  · exact stepsLive_of_steps hnone
  · intro saved
    cases saved with
    | true => exact recordStepResult_saved hresets
    | false =>
      exact recordStepResult_of_live (stepsLive_of_steps hnone) hresets

end Law

theorem mem_loopCalls : BackendCall.reset envIds ∉ loopCalls tick polls := by
  induction polls generalizing tick with
  | nil => simp [loopCalls]
  | cons poll polls ih =>
    unfold loopCalls
    split_ifs
    · intro hmem
      cases mem_append.mp hmem with
      | inl hpolled => cases mem_selectedCalls hpolled
      | inr hlater => exact ih hlater
    · simp

theorem mem_finalCalls :
    BackendCall.reset envIds ∉ finalCalls tick reply polls := by
  induction polls generalizing tick with
  | nil =>
    intro hmem
    cases mem_selectedCalls hmem
  | cons poll polls ih =>
    unfold finalCalls
    split_ifs
    · exact ih
    · intro hmem
      cases mem_selectedCalls hmem

/-- A tick ends.  Each action that an operator gives before the episode ends
is executed once and in order, the last one by the step after the loop; where
a step of the loop ends the episode, the action read just before is dropped. -/
theorem operator_actions_once (env : EnvState n A O) (action : Fin n → A)
    (chunkIntervened : Mask n) (reply : Fin n → StepRow O)
    (polls : List (Poll n A O)) (hobs : env.Observed) :
    ∃ next loop final,
      stepWithTeleopAndRecording env action chunkIntervened reply polls =
        .ok next ∧
      next.1.calls = env.calls ++ (loop ++ final) ∧ final.length ≤ 1 ∧
      ∀ e, OperatorLaw e (action e) (env.done e) (chunkIntervened e)
        (delivered e (startTick env action chunkIntervened) polls)
        loop final := by
  obtain ⟨next, hnext, hcalls⟩ := teleopLoop_eq_ok hobs
    (startTick env action chunkIntervened) reply polls
  refine ⟨next, _, _, hnext, hcalls, finalCalls_length, ?_⟩
  intro e
  have hresets : ∀ envIds, BackendCall.reset envIds ∉
      loopCalls (startTick env action chunkIntervened) polls ++
        finalCalls (startTick env action chunkIntervened) reply polls := by
    intro envIds hmem
    cases mem_append.mp hmem with
    | inl hloop => exact mem_loopCalls hloop
    | inr hfinal => exact mem_finalCalls hfinal
  cases hdone : env.done e with
  | true =>
      have hstart : (startTick env action chunkIntervened).done e = true :=
        hdone
      have hrest := resting_calls polls reply hstart
      rw [hrest.1]
      exact operatorLaw_of_done hrest.2 hresets
  | false =>
      have hstart : (startTick env action chunkIntervened).done e = false :=
        hdone
      have honce := actionsOnce polls reply hstart
      exact honce.law hresets

/-! ### An action read while the one before it ends the episode -/

def steeredEnv : EnvState 1 ℕ Unit :=
  { EnvState.initial with latestObs := some [⟨(), ∅⟩] }

def steeredRow (terminated : Bool) : StepRow Unit where
  obs := ⟨(), ∅⟩
  reward := 0
  terminated := terminated
  truncated := false
  success := false
  score := none

/-- The operator gives the actions 1 and 2, and the first ends the episode. -/
def steeredPolls : List (Poll 1 ℕ Unit) :=
  [⟨fun _ => ⟨some 1, false, false, false⟩, fun _ => steeredRow false⟩,
    ⟨fun _ => ⟨some 2, false, false, false⟩, fun _ => steeredRow true⟩]

theorem operator_action_dropped :
    ¬∀ next, stepWithTeleopAndRecording steeredEnv (fun _ => 0) noEnvs
        (fun _ => steeredRow false) steeredPolls = .ok next →
      (executions 0 (next.1.calls.drop steeredEnv.calls.length)).filter
        (fun execution => execution.2) =
      (delivered 0 (startTick steeredEnv (fun _ => 0) noEnvs)
        steeredPolls).map fun action => (action, true) := by
  intro hall
  have hobs : steeredEnv.Observed := by decide
  obtain ⟨next, hnext, hcalls⟩ := teleopLoop_eq_ok hobs
    (startTick steeredEnv (fun _ => 0) noEnvs) (fun _ => steeredRow false)
    steeredPolls
  have hsame := hall next hnext
  rw [hcalls, drop_left] at hsame
  revert hsame
  decide

theorem operator_actions_once_steered : ∃ next loop final,
      stepWithTeleopAndRecording steeredEnv (fun _ => 0) noEnvs
        (fun _ => steeredRow false) steeredPolls = .ok next ∧
      next.1.calls = steeredEnv.calls ++ (loop ++ final) ∧
      final.length ≤ 1 ∧
      ∀ e, OperatorLaw e 0 (steeredEnv.done e) false
        (delivered e (startTick steeredEnv (fun _ => 0) noEnvs) steeredPolls)
        loop final :=
  operator_actions_once steeredEnv (fun _ => 0) noEnvs
    (fun _ => steeredRow false) steeredPolls (by decide)

end BaseEnv
end VerlVla
