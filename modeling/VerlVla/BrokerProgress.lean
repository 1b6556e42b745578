import Mathlib.Algebra.Order.BigOperators.Group.Finset
import VerlVla.BrokerRouting

/-!
# The broker answers and ends

A turn of the loop has a bounded number of steps, and a turn that starts with a
message in a pipe takes it.  So a request is answered, and the loop ends after
the last terminal message, within a number of steps of the broker.
-/

namespace VerlVla

open List hiding after cons mem_of_head? nil

open Transition

variable {A V : Type}

def BrokerLabel.isLoop : BrokerLabel A → Bool
  | .wait _ _ => true
  | .coalesce _ => true
  | .inference => true
  | .send => true
  | .leave => true
  | _ => false

/-- The steps left in this turn of the loop. -/
def ModelBroker.roundWork (broker : ModelBroker A V) : ℕ :=
  match broker.phase with
  | .gathering messages =>
    2 * (broker.active \ requestedWorkers messages).card + messages.length + 2
  | .sending _ pairs => pairs.length + 1
  | _ => 0

section Work

variable {config : BrokerConfig} {model : SharedModel A V}
  {entries more : BrokerLog A V} {broker next : ModelBroker A V}

section Collect

theorem candidates_collect
    (hsender : ∀ worker, ∀ message ∈ broker.outbox worker,
      message.sender = worker)
    (hreceived : Received ready broker.outbox
      ⟨broker.active, broker.results, messages⟩ rest after) :
    after.active \ requestedWorkers after.messages ⊆
      (broker.active \ requestedWorkers messages) \ ready.toFinset := by
  intro other hother
  rw [Finset.mem_sdiff, hreceived.active, Finset.mem_sdiff] at hother
  obtain ⟨⟨hactive, hdone⟩, hfree⟩ := hother
  rw [requestedWorkers, hreceived.messages, map_append,
    toFinset_append, Finset.mem_union, not_or] at hfree
  rw [Finset.mem_sdiff, Finset.mem_sdiff, mem_toFinset]
  refine ⟨⟨hactive, hfree.1⟩, ?_⟩
  intro hready
  obtain ⟨message, hhead, herror⟩ := hreceived.heads other hready
  have howner := hsender other message (mem_of_head? hhead)
  cases message with
  | infer request =>
    apply hfree.2
    rw [mem_toFinset, mem_map]
    refine ⟨request, ?_, howner⟩
    rw [headsOf, mem_filterMap]
    refine ⟨other, hready, ?_⟩
    rw [hhead]
    rfl
  | done sender result =>
    apply hdone
    rw [mem_toFinset, headsOf, mem_filterMap]
    refine ⟨other, hready, ?_⟩
    rw [hhead]
    exact congrArg some howner
  | error sender => cases herror

theorem length_messages_collect (hreceived : Received ready broker.outbox
      ⟨broker.active, broker.results, messages⟩ rest after) :
    after.messages.length ≤ messages.length + ready.length := by
  rw [hreceived.messages, length_append]
  exact Nat.add_le_add_left (length_filterMap_le _ _) _

theorem work_collect (hsender : ∀ worker, ∀ message ∈ broker.outbox worker,
      message.sender = worker)
    (hall : broker.Ready (broker.active \ requestedWorkers messages) ready)
    (hreceived : Received ready broker.outbox
      ⟨broker.active, broker.results, messages⟩ rest after) :
    2 * (after.active \ requestedWorkers after.messages).card +
        after.messages.length + ready.length ≤
      2 * (broker.active \ requestedWorkers messages).card +
        messages.length := by
  have hcandidates := Finset.card_le_card
    (candidates_collect hsender hreceived)
  have hsubset : ready.toFinset ⊆
      broker.active \ requestedWorkers messages := by
    rw [hall.2]
    exact Finset.filter_subset _ _
  rw [Finset.card_sdiff_of_subset hsubset,
    toFinset_card_of_nodup hall.1] at hcandidates
  have hcard := Finset.card_le_card hsubset
  rw [toFinset_card_of_nodup hall.1] at hcard
  have hlength := length_messages_collect hreceived
  omega

end Collect

/-- A step of the loop lowers the work of the turn, or starts a turn and
lowers the queue. -/
theorem BrokerMove.work_lt (hmove : BrokerMove config model broker more next)
    (hqueues : QueuesInv config.simulators entries broker)
    (hlooping : broker.phase.isOver = false)
    (queue : ModelBroker A V → ℕ) (hqueue : queue next ≤ queue broker)
    (hturn : broker.phase = .waiting → more = [] → queue next < queue broker) :
    (LoopRaised more ∨ LoopEnded more) ∨
      next.roundWork + (2 * config.simulators + 3) * queue next <
        broker.roundWork + (2 * config.simulators + 3) * queue broker := by
  have hproduct := Nat.mul_le_mul_left (2 * config.simulators + 3) hqueue
  cases hmove with
  | idle hphase => exact absurd (hturn hphase rfl) (lt_irrefl _)
  | raise error next =>
    exact .inl (.inl ⟨error, mem_singleton_self _⟩)
  | leave => exact .inl (.inr ⟨_, mem_singleton_self _⟩)
  | hangUp next hphase =>
    simp [hlooping] at hphase
  | empty hphase =>
    right
    simp only [ModelBroker.roundWork, hphase, length_nil]
    omega
  | computed messages merged slices outputs hphase =>
    right
    have hlength : (messages.zip slices).length =
        min messages.length slices.length := length_zip
    simp only [ModelBroker.roundWork, hphase]
    omega
  | answer outputs message slice pairs inbox hphase =>
    right
    simp only [ModelBroker.roundWork, hphase, length_cons]
    omega
  | sent outputs hphase =>
    right
    simp only [ModelBroker.roundWork, hphase, length_nil]
    omega
  | collect messages ready rest after hcollects hready hall hreceived =>
    right
    have hwork := work_collect hqueues.sender hall hreceived
    have hlength := length_pos_iff.mpr hready
    rcases hcollects with ⟨hphase, rfl⟩ | hphase
    · have hlower := hturn hphase rfl
      have hstart := Nat.mul_le_mul_left (2 * config.simulators + 3)
        (Nat.succ_le_of_lt hlower)
      have hcard : broker.active.card ≤ config.simulators := by
        have hsubset : broker.active ⊆ Finset.range config.simulators := by
          intro worker hworker
          exact Finset.mem_range.mpr (hqueues.bound worker hworker)
        simpa using Finset.card_le_card hsubset
      have hcandidates : (broker.active \
          requestedWorkers ([] : List (InferMessage A))).card ≤
            broker.active.card :=
        Finset.card_le_card Finset.sdiff_subset
      rw [Nat.mul_succ] at hstart
      simp only [ModelBroker.roundWork, hphase, length_nil] at hwork ⊢
      omega
    · simp only [ModelBroker.roundWork, hphase]
      omega

theorem WorkerStep.roundWork_eq (hstep : WorkerStep worker broker more next) :
    next.roundWork = broker.roundWork := by
  rw [ModelBroker.roundWork, ModelBroker.roundWork, hstep.phase, hstep.active]

theorem exists_loop_step (hlooping : broker.phase.isOver = false) :
    ∃ label : BrokerLabel A, label.isLoop ∧
      ((brokerMachine config model).step broker label).isSome := by
  cases hphase : broker.phase with
  | waiting =>
    by_cases hactive : broker.active = ∅
    · refine ⟨.leave, rfl, ?_⟩
      simp [brokerMachine, ModelBroker.step, BrokerLabel.worker?,
        ModelBroker.brokerStep, hphase, hactive]
    · let ready := (broker.active.filter fun worker =>
        broker.outbox worker ≠ [] ∨
          (broker.workers worker).phase.isClosed).toList
      have hready : broker.Ready broker.active ready :=
        ⟨Finset.nodup_toList _, Finset.toList_toFinset _⟩
      refine ⟨.wait ready false, rfl, ?_⟩
      simp only [brokerMachine, ModelBroker.step, BrokerLabel.worker?,
        ModelBroker.brokerStep, hphase]
      rw [if_pos ⟨hactive, hready⟩]
      split_ifs <;> rfl
  | gathering messages =>
    refine ⟨.inference, rfl, ?_⟩
    simp [brokerMachine, ModelBroker.step, BrokerLabel.worker?,
      ModelBroker.brokerStep, hphase]
  | sending outputs pairs =>
    refine ⟨.send, rfl, ?_⟩
    cases pairs with
    | nil | cons pair pairs =>
      simp [brokerMachine, ModelBroker.step, BrokerLabel.worker?,
        ModelBroker.brokerStep, hphase]
  | stopping error connections | stopped error =>
    rw [hphase] at hlooping
    cases hlooping

end Work

/-! ## The last terminal message -/

/-- The messages that a simulator has left in its pipe or may still post. -/
def ModelBroker.leftOver (broker : ModelBroker A V) (worker : ℕ) : ℕ :=
  (broker.outbox worker).length +
    if (broker.workers worker).phase = .closing then 1 else 0

def ModelBroker.leftOvers (simulators : ℕ) (broker : ModelBroker A V) : ℕ :=
  ∑ worker ∈ Finset.range simulators, broker.leftOver worker

section Ending

variable {config : BrokerConfig} {model : SharedModel A V}
  {entries more : BrokerLog A V} {broker next : ModelBroker A V}

theorem leftOver_popped (hrest : next.outbox = popped ready broker.outbox)
    (hworkers : next.workers = broker.workers) (worker : ℕ) :
    next.leftOver worker ≤ broker.leftOver worker ∧
      (worker ∈ ready → broker.outbox worker ≠ [] →
        next.leftOver worker < broker.leftOver worker) := by
  rw [ModelBroker.leftOver, ModelBroker.leftOver, hrest, hworkers, popped]
  by_cases hready : worker ∈ ready
  · rw [if_pos hready, length_tail]
    constructor
    · omega
    · intro _ hsome
      have hpositive := length_pos_iff.mpr hsome
      omega
  · rw [if_neg hready]
    constructor
    · exact le_rfl
    · intro hmember
      exact absurd hmember hready

theorem leftOver_worker (hover : (broker.workers worker).phase.isOver)
    (hstep : WorkerStep worker broker more next) (other : ℕ) :
    next.leftOver other ≤ broker.leftOver other := by
  obtain ⟨posted, ⟨state, hmove, hworkers⟩, houtbox, hothers⟩ :=
    hstep.outbox_eq
  rw [ModelBroker.leftOver, ModelBroker.leftOver, hworkers]
  by_cases heq : other = worker
  · subst heq
    rw [Function.update_self, houtbox, length_append]
    cases hmove with
    | asked observation hphase | finished result hphase | crashed hphase =>
      rw [hphase] at hover
      cases hover
    | late hphase => simp [hphase]
    | quiet state hindex hkept hclosed =>
      cases hphase : (broker.workers other).phase with
      | running | waiting requestId =>
        rw [hphase] at hover
        cases hover
      | closing =>
        simp only [length_nil, if_true]
        split_ifs <;> omega
      | closed failed =>
        rw [hphase] at hclosed
        have hgone := hclosed rfl
        have hne : state.phase ≠ .closing := by
          intro hclosing
          rw [hclosing] at hgone
          cases hgone
        simp [hne]
  · rw [Function.update_of_ne heq, hothers other heq]

section

variable (hmove : BrokerMove config model broker more next)
  (hlooping : broker.phase.isOver = false)

include hmove hlooping

theorem BrokerMove.outbox_cases :
    (LoopRaised more ∨ LoopEnded more) ∨ next.outbox = broker.outbox ∨
      ∃ ready, next.outbox = popped ready broker.outbox := by
  cases hmove with
  | raise error next =>
    exact .inl (.inl ⟨error, mem_singleton_self _⟩)
  | leave => exact .inl (.inr ⟨_, mem_singleton_self _⟩)
  | hangUp next hphase =>
    simp [hlooping] at hphase
  | collect messages ready rest after hcollects hready hall hreceived =>
    exact .inr (.inr ⟨ready, hreceived.rest⟩)
  | _ => exact .inr (.inl rfl)

theorem leftOvers_broker : (LoopRaised more ∨ LoopEnded more) ∨
      next.leftOvers config.simulators ≤
        broker.leftOvers config.simulators := by
  have hworkers := hmove.workers_eq
  rcases hmove.outbox_cases hlooping with hend | hsame | ⟨ready, hrest⟩
  · exact .inl hend
  · right
    apply Finset.sum_le_sum
    intro worker _
    rw [ModelBroker.leftOver, ModelBroker.leftOver, hsame, hworkers]
  · right
    apply Finset.sum_le_sum
    intro worker _
    exact (leftOver_popped hrest hworkers worker).1

end

section

variable (hmove : BrokerMove config model broker [] next)
  (hphase : broker.phase = .waiting)

include hmove hphase

theorem popped_of_turn (hactive : worker ∈ broker.active)
    (hsome : broker.outbox worker ≠ []) :
    ∃ ready, worker ∈ ready ∧ next.outbox = popped ready broker.outbox := by
  cases hmove with
  | idle _ _ hidle =>
    have hmember : worker ∈ broker.active.filter fun worker =>
        broker.outbox worker ≠ [] ∨ (broker.workers worker).phase.isClosed :=
      Finset.mem_filter.mpr ⟨hactive, .inl hsome⟩
    rw [← hidle.2] at hmember
    cases hmember
  | hangUp next hover =>
    rw [hphase] at hover
    cases hover
  | empty hother | computed messages merged slices outputs hother
  | sent outputs hother =>
    rw [hphase] at hother
    cases hother
  | collect messages ready rest after hcollects hready hall hreceived =>
    refine ⟨ready, ?_, hreceived.rest⟩
    rcases hcollects with ⟨_, rfl⟩ | hother
    · rw [← mem_toFinset, hall.2, Finset.mem_filter, Finset.mem_sdiff]
      refine ⟨⟨hactive, ?_⟩, .inl hsome⟩
      simp [requestedWorkers]
    · rw [hphase] at hother
      cases hother

theorem BrokerMove.active_of_waiting : broker.active ≠ ∅ := by
  intro hactive
  cases hmove with
  | idle _ hsome => exact hsome hactive
  | collect messages ready rest after hcollects hready hall =>
    have hnone : ready.toFinset = ∅ := by
      rw [hall.2, hactive, Finset.empty_sdiff, Finset.filter_empty]
    exact hready ((toFinset_eq_empty_iff _).mp hnone)
  | hangUp next hover =>
    rw [hphase] at hover
    cases hover
  | empty hother | computed messages merged slices outputs hother
  | sent outputs hother =>
    rw [hphase] at hother
    cases hother

theorem leftOvers_turn (hactive : worker ∈ broker.active)
    (hbound : worker < config.simulators) (hsome : broker.outbox worker ≠ []) :
    next.leftOvers config.simulators < broker.leftOvers config.simulators := by
  have hworkers := hmove.workers_eq
  obtain ⟨ready, hready, hrest⟩ := popped_of_turn hmove hphase hactive hsome
  apply Finset.sum_lt_sum
  · intro other _
    exact (leftOver_popped hrest hworkers other).1
  · refine ⟨worker, Finset.mem_range.mpr hbound, ?_⟩
    exact (leftOver_popped hrest hworkers worker).2 hready hsome

end

end Ending

/-! ## A request that waits -/

def WorkerMessage.asks (worker requestId : ℕ) : WorkerMessage A → Bool
  | .infer message =>
    message.workerId = worker ∧ message.requestId = requestId
  | _ => false

/-- The messages before a request in its pipe, none once it is in the batch. -/
def ModelBroker.ahead (worker requestId : ℕ) (broker : ModelBroker A V) : ℕ :=
  if broker.phase.batch.any fun message =>
      message.workerId = worker ∧ message.requestId = requestId then 0
  else (broker.outbox worker).findIdx (WorkerMessage.asks worker requestId) + 1

section Waiting

variable {config : BrokerConfig} {model : SharedModel A V}
  {entries more : BrokerLog A V} {broker next : ModelBroker A V}
  {worker requestId : ℕ} {observation : IpcObservation A}

theorem asks_of_held
    (hheld : ⟨worker, requestId, observation⟩ ∈ broker.held worker) :
    (broker.phase.batch.any fun message =>
        message.workerId = worker ∧ message.requestId = requestId) = true ∨
      ∃ message ∈ broker.outbox worker,
        message.asks worker requestId = true := by
  rcases mem_append.mp hheld with hbatch | houtbox
  · left
    rw [any_eq_true]
    refine ⟨_, (mem_filter.mp hbatch).1, ?_⟩
    simp
  · right
    obtain ⟨message, hmessage, hinfer⟩ := mem_filterMap.mp houtbox
    refine ⟨message, hmessage, ?_⟩
    cases message with
    | infer request =>
      cases hinfer
      simp [WorkerMessage.asks]
    | done sender result | error sender => cases hinfer

theorem ahead_worker
    (hheld : ⟨worker, requestId, observation⟩ ∈ broker.held worker)
    (hstep : WorkerStep other broker more next) :
    next.ahead worker requestId = broker.ahead worker requestId := by
  obtain ⟨posted, _, houtbox, hothers⟩ := hstep.outbox_eq
  rw [ModelBroker.ahead, ModelBroker.ahead, hstep.phase]
  rcases asks_of_held hheld with hbatch | hasks
  · rw [if_pos hbatch, if_pos hbatch]
  · by_cases heq : worker = other
    · subst heq
      have hlt := findIdx_lt_length.mpr hasks
      rw [houtbox, findIdx_append, if_pos hlt]
    · rw [hothers worker heq]

theorem ahead_of_outbox (houtbox : next.outbox = broker.outbox)
    (hbatch : next.phase.batch = broker.phase.batch) :
    next.ahead worker requestId = broker.ahead worker requestId := by
  rw [ModelBroker.ahead, ModelBroker.ahead, houtbox, hbatch]

theorem ite_or_le (hle : left ≤ right) :
    (if (first || second) = true then 0 else left) ≤
      if first = true then 0 else right := by
  cases first with
  | false =>
    cases second with
    | false => exact hle
    | true => exact Nat.zero_le _
  | true => exact Nat.zero_le _

theorem ahead_collect
    (hheld : ⟨worker, requestId, observation⟩ ∈ broker.held worker)
    (hcollects : broker.phase.Collects messages)
    (hreceived : Received ready broker.outbox
      ⟨broker.active, broker.results, messages⟩ rest after) :
    ({ broker with
        outbox := rest
        active := after.active
        results := after.results
        phase := .gathering after.messages } : ModelBroker A V).ahead worker
          requestId ≤ broker.ahead worker requestId ∧
      (worker ∈ ready → broker.phase.batch = [] → ({ broker with
          outbox := rest
          active := after.active
          results := after.results
          phase := .gathering after.messages } : ModelBroker A V).ahead
            worker requestId < broker.ahead worker requestId) := by
  have hbatch := batch_of_collects hcollects
  simp only [ModelBroker.ahead]
  rw [hbatch]
  simp only [BrokerPhase.batch, hreceived.messages, any_append]
  rcases asks_of_held hheld with hasked | hasks
  · rw [hbatch] at hasked
    rw [hasked, Bool.true_or, if_pos rfl]
    constructor
    · exact Nat.zero_le _
    · intro _ hnone
      simp [hnone] at hasked
  · rw [hreceived.rest, popped]
    by_cases hready : worker ∈ ready
    · obtain ⟨message, hhead, _⟩ := hreceived.heads worker hready
      cases hpipe : broker.outbox worker with
      | nil =>
        simp [hpipe] at hhead
      | cons first others =>
        rw [hpipe] at hhead
        cases hhead
        rw [if_pos hready, tail_cons]
        by_cases hfirst : message.asks worker requestId = true
        · have hhere : ((headsOf ready broker.outbox
              WorkerMessage.infer?).any fun message =>
                message.workerId = worker ∧
                  message.requestId = requestId) = true := by
            cases message with
            | infer request =>
              rw [any_eq_true]
              refine ⟨request, ?_, hfirst⟩
              rw [headsOf, mem_filterMap]
              refine ⟨worker, hready, ?_⟩
              rw [hpipe]
              rfl
            | done sender result | error sender => cases hfirst
          rw [hhere, Bool.or_true, if_pos rfl]
          constructor
          · exact Nat.zero_le _
          · intro _ hnone
            rw [hnone]
            exact Nat.succ_pos _
        · rw [Bool.not_eq_true] at hfirst
          rw [findIdx_cons, hfirst, cond_false]
          constructor
          · exact ite_or_le (Nat.le_succ _)
          · intro _ hnone
            rw [hnone, any_nil, Bool.false_or, if_neg Bool.false_ne_true]
            split_ifs
            · exact Nat.succ_pos _
            · exact Nat.lt_succ_self _
    · rw [if_neg hready]
      constructor
      · exact ite_or_le le_rfl
      · intro hmember
        exact absurd hmember hready

end Waiting

/-! ## The contract -/

/-- What simulators and their driver rely on in every state of a run. -/
structure BrokerContract (config : BrokerConfig) (model : SharedModel A V)
    (keys : Bool → List TensorKey)
    (row : Bool → PolicyRow A → TensorKey → V) (entries : BrokerLog A V)
    (broker : ModelBroker A V) : Prop where
  answers : Lawful (fun before => routingLaw before keys row config.eval)
    entries
  unique : ∀ worker requestId observation other,
    BrokerEvent.requested worker requestId observation ∈ entries →
      BrokerEvent.requested worker requestId other ∈ entries →
        observation = other
  kept : ∀ worker requestId observation,
    BrokerEvent.requested worker requestId observation ∈ entries →
      LoopRaised entries ∨ IsAnswered entries worker requestId ∨
        worker ∈ broker.active ∧
          ⟨worker, requestId, observation⟩ ∈ broker.held worker
  answered : ∀ worker requestId observation,
    BrokerEvent.requested worker requestId observation ∈ entries →
      ∃ bound, ∀ more last, Run (brokerMachine config model) broker more last →
        bound < more.countP (fun event => event.label.isLoop) →
          LoopRaised (entries ++ log more) ∨
            IsAnswered (entries ++ log more) worker requestId
  onlyWhen : broker.phase.isOver →
    LoopRaised entries ∨ ∀ worker < config.simulators,
      ∃ result, BrokerEvent.finished worker result ∈ entries
  raises : LoopRaised entries → broker.phase.isOver
  ends : (∀ worker < config.simulators, SentTerminal entries worker) →
    ∃ bound, ∀ more last, Run (brokerMachine config model) broker more last →
      bound < more.countP (fun event => event.label.isLoop) → last.phase.isOver
  goesOn : broker.phase.isOver = false → ∃ label : BrokerLabel A,
    label.isLoop ∧ ((brokerMachine config model).step broker label).isSome

section Contract

variable {config : BrokerConfig} {model : SharedModel A V}
  {keys : Bool → List TensorKey} {row : Bool → PolicyRow A → TensorKey → V}
  {entries more : BrokerLog A V} {broker next : ModelBroker A V}

def ModelBroker.loopWork (simulators : ℕ) (queue : ModelBroker A V → ℕ)
    (broker : ModelBroker A V) : ℕ :=
  broker.roundWork + (2 * simulators + 3) * queue broker

theorem isLoop_of_worker {label : BrokerLabel A}
    (hlabel : label.worker? = some worker) : label.isLoop = false := by
  cases label with
  | infer | receive | finish | crash | close | kill => rfl
  | _ => cases hlabel

/-- A step of a simulator does not raise the work of the loop, and a step of
the loop lowers it or ends the loop. -/
theorem loopWork_step
    (hinv : BrokerInv config.simulators keys row config.eval entries broker)
    (hlooping : broker.phase.isOver = false) (queue : ModelBroker A V → ℕ)
    (hstep : (brokerMachine config model).step broker label =
      some (more, next))
    (hworker : ∀ worker, WorkerStep worker broker more next →
      queue next ≤ queue broker)
    (hbroker : BrokerMove config model broker more next →
      (LoopRaised more ∨ LoopEnded more) ∨ queue next ≤ queue broker ∧
        (broker.phase = .waiting → more = [] → queue next < queue broker)) :
    (LoopRaised more ∨ LoopEnded more) ∨
      next.loopWork config.simulators queue + label.isLoop.toNat ≤
        broker.loopWork config.simulators queue := by
  change broker.step config model label = some (more, next) at hstep
  unfold ModelBroker.step at hstep
  cases hlabel : label.worker? with
  | some worker =>
    right
    simp only [hlabel] at hstep
    split_ifs at hstep with hlt
    have hmove := ModelBroker.WorkerStep.of_step hstep
    have hqueue := Nat.mul_le_mul_left (2 * config.simulators + 3)
      (hworker worker hmove)
    rw [isLoop_of_worker hlabel, ModelBroker.loopWork,
      ModelBroker.loopWork, hmove.roundWork_eq, Bool.toNat_false]
    omega
  | none =>
    rw [hlabel] at hstep
    have hmove := BrokerMove.of_step hstep
    have hnone := (hinv.noRaise hlooping).1
    rcases hbroker hmove with hend | ⟨hqueue, hturn⟩
    · exact .inl hend
    · rcases hmove.work_lt (hinv.queues hnone) hlooping queue hqueue
        hturn with hend | hlower
      · exact .inl hend
      · right
        have hle := Bool.toNat_le label.isLoop
        rw [ModelBroker.loopWork, ModelBroker.loopWork]
        omega

theorem over_append (houtput : List (BrokerEvent A V))
    (hover : LoopRaised entries ∨ LoopEnded entries) :
    LoopRaised (entries ++ houtput) ∨ LoopEnded (entries ++ houtput) := by
  rw [loopRaised_append, loopEnded_append]
  tauto

structure Draining (config : BrokerConfig) (keys : Bool → List TensorKey)
    (row : Bool → PolicyRow A → TensorKey → V) (entries : BrokerLog A V)
    (broker : ModelBroker A V) : Prop where
  inv : BrokerInv config.simulators keys row config.eval entries broker
  looping : broker.phase.isOver = false
  sent : ∀ worker < config.simulators, SentTerminal entries worker

theorem Draining.leftOvers_worker
    (hdraining : Draining config keys row entries broker)
    (hmove : WorkerStep worker broker more next) :
    next.leftOvers config.simulators ≤ broker.leftOvers config.simulators := by
  apply Finset.sum_le_sum
  intro other hother
  have hlt := Finset.mem_range.mp hother
  by_cases heq : other = worker
  · subst heq
    have hover := hdraining.inv.workers.settled other (hdraining.sent other hlt)
    exact leftOver_worker hover hmove other
  · obtain ⟨posted, ⟨state, _, hworkers⟩, _, hothers⟩ := hmove.outbox_eq
    rw [ModelBroker.leftOver, ModelBroker.leftOver, hworkers,
      Function.update_of_ne heq, hothers other heq]

theorem Draining.leftOvers_broker
    (hdraining : Draining config keys row entries broker)
    (hmove : BrokerMove config model broker more next) :
    (LoopRaised more ∨ LoopEnded more) ∨ next.leftOvers config.simulators ≤
          broker.leftOvers config.simulators ∧
        (broker.phase = .waiting → more = [] →
          next.leftOvers config.simulators <
            broker.leftOvers config.simulators) := by
  have hqueues := hdraining.inv.queues
    (hdraining.inv.noRaise hdraining.looping).1
  rcases VerlVla.leftOvers_broker hmove hdraining.looping with hend | hle
  · exact .inl hend
  · refine .inr ⟨hle, ?_⟩
    rintro hphase rfl
    have hactive := hmove.active_of_waiting hphase
    obtain ⟨worker, hworker⟩ := Finset.nonempty_iff_ne_empty.mpr hactive
    have hbound := hqueues.bound worker hworker
    obtain ⟨message, hmessage, _⟩ :=
      hqueues.unread worker hworker (hdraining.sent worker hbound)
    exact leftOvers_turn hmove hphase hworker hbound (ne_nil_of_mem hmessage)

theorem Draining.step (hmodel : model.RowWise keys row)
    (hdraining : Draining config keys row entries broker)
    (hstep : (brokerMachine config model).step broker label =
      some (more, next)) :
    (LoopRaised (entries ++ more) ∨ LoopEnded (entries ++ more)) ∨
      Draining config keys row (entries ++ more) next ∧
        next.loopWork config.simulators
            (ModelBroker.leftOvers config.simulators) + label.isLoop.toNat ≤
          broker.loopWork config.simulators
            (ModelBroker.leftOvers config.simulators) := by
  have hnext := hdraining.inv.step hmodel hstep
  have hwork := loopWork_step hdraining.inv hdraining.looping
    (ModelBroker.leftOvers config.simulators) hstep
    (fun worker hmove => hdraining.leftOvers_worker hmove)
    (fun hmove => hdraining.leftOvers_broker hmove)
  rcases hwork with hend | hlower
  · left
    rw [loopRaised_append, loopEnded_append]
    tauto
  · cases hover : next.phase.isOver with
    | true => exact .inl (hnext.settled.mp hover)
    | false =>
      refine .inr ⟨⟨hnext, hover, ?_⟩, hlower⟩
      intro worker hworker
      exact sentTerminal_append.mpr (.inl (hdraining.sent worker hworker))

theorem ends_after_terminals (hmodel : model.RowWise keys row)
    (hinv : BrokerInv config.simulators keys row config.eval entries broker)
    (hsent : ∀ worker < config.simulators, SentTerminal entries worker)
    (hrun : Run (brokerMachine config model) broker events last)
    (hlong : broker.loopWork config.simulators
        (ModelBroker.leftOvers config.simulators) <
      events.countP (fun event => event.label.isLoop)) :
    LoopRaised (entries ++ log events) ∨ LoopEnded (entries ++ log events) := by
  cases hlooping : broker.phase.isOver with
  | true => exact over_append _ (hinv.settled.mp hlooping)
  | false =>
    have hmeasure := hrun.log_measure (Draining config keys row)
      (fun entries => LoopRaised entries ∨ LoopEnded entries)
      (ModelBroker.loopWork config.simulators
        (ModelBroker.leftOvers config.simulators))
      BrokerLabel.isLoop entries
      (fun _ output hover => over_append output hover)
      (fun _ _ _ _ _ hdraining hstep => hdraining.step hmodel hstep)
      ⟨hinv, hlooping, hsent⟩
    rcases hmeasure with hover | ⟨_, hfew⟩
    · exact hover
    · omega

/-! ## Answers -/

theorem outbox_of_held
    (hheld : ⟨worker, requestId, observation⟩ ∈ broker.held worker)
    (hphase : broker.phase = .waiting) : broker.outbox worker ≠ [] := by
  rcases asks_of_held hheld with hbatch | ⟨message, hmessage, _⟩
  · rw [hphase] at hbatch
    cases hbatch
  · exact ne_nil_of_mem hmessage

theorem ahead_answer
    (hphase : broker.phase = .sending outputs ((message, slice) :: pairs))
    (hother : ¬(message.workerId = worker ∧ message.requestId = requestId)) :
    ({ broker with inbox := inbox, phase := .sending outputs pairs } :
        ModelBroker A V).ahead worker requestId =
      broker.ahead worker requestId := by
  have hfirst : decide (message.workerId = worker ∧
      message.requestId = requestId) = false := decide_eq_false hother
  rw [ModelBroker.ahead, ModelBroker.ahead, hphase]
  simp only [BrokerPhase.batch, map_cons, any_cons, hfirst, Bool.false_or]
  rfl

theorem ahead_broker (hmodel : model.RowWise keys row)
    (hlooping : broker.phase.isOver = false) (hactive : worker ∈ broker.active)
    (hheld : ⟨worker, requestId, observation⟩ ∈ broker.held worker)
    (hfree : ¬IsAnswered more worker requestId)
    (hmove : BrokerMove config model broker more next) :
    (LoopRaised more ∨ LoopEnded more) ∨
      next.ahead worker requestId ≤ broker.ahead worker requestId ∧
        (broker.phase = .waiting → more = [] →
          next.ahead worker requestId < broker.ahead worker requestId) := by
  have hturn : broker.phase = .waiting → more = [] → ∃ ready,
      worker ∈ ready ∧ next.outbox = popped ready broker.outbox := by
    rintro hphase rfl
    exact popped_of_turn hmove hphase hactive (outbox_of_held hheld hphase)
  cases hmove with
  | raise error next =>
    exact .inl (.inl ⟨error, mem_singleton_self _⟩)
  | leave => exact .inl (.inr ⟨_, mem_singleton_self _⟩)
  | hangUp next hover =>
    simp [hlooping] at hover
  | idle hphase hsome hidle =>
    have hmember : worker ∈ broker.active.filter fun worker =>
        broker.outbox worker ≠ [] ∨ (broker.workers worker).phase.isClosed :=
      Finset.mem_filter.mpr ⟨hactive, .inl (outbox_of_held hheld hphase)⟩
    rw [← hidle.2] at hmember
    cases hmember
  | collect messages ready rest after hcollects hready hall hreceived =>
    obtain ⟨hle, hlt⟩ := ahead_collect hheld hcollects hreceived
    refine .inr ⟨hle, ?_⟩
    intro hphase _
    apply hlt
    · rw [← mem_toFinset, hall.2, Finset.mem_filter, Finset.mem_sdiff]
      have hbatch := batch_of_collects hcollects
      rw [hphase] at hbatch
      rw [← hbatch]
      refine ⟨⟨hactive, ?_⟩, .inl (outbox_of_held hheld hphase)⟩
      simp [requestedWorkers, BrokerPhase.batch]
    · rw [hphase]
      rfl
  | empty hphase =>
    right
    have hsame : ({ broker with phase := .waiting } :
        ModelBroker A V).ahead worker requestId =
          broker.ahead worker requestId := by
      apply ahead_of_outbox
      · rfl
      · rw [hphase]
        rfl
    refine ⟨hsame.le, ?_⟩
    intro hwaiting
    simp [hphase] at hwaiting
  | computed messages merged slices outputs hphase hmerge hinfer =>
    right
    obtain ⟨hlength, _⟩ := rows_computed hmodel hmerge hinfer
    have hsame : ({ broker with
        phase := .sending outputs (messages.zip slices) } :
        ModelBroker A V).ahead worker requestId =
          broker.ahead worker requestId := by
      apply ahead_of_outbox
      · rfl
      · rw [hphase]
        exact map_fst_zip hlength.ge
    refine ⟨hsame.le, ?_⟩
    intro hwaiting
    simp [hphase] at hwaiting
  | answer outputs message slice pairs inbox hphase =>
    right
    have hother : ¬(message.workerId = worker ∧
        message.requestId = requestId) := by
      rintro ⟨rfl, rfl⟩
      exact hfree ⟨_, mem_singleton_self _⟩
    refine ⟨(ahead_answer hphase hother).le, ?_⟩
    intro hwaiting
    simp [hphase] at hwaiting
  | sent outputs hphase =>
    right
    have hsame : ({ broker with phase := .waiting } :
        ModelBroker A V).ahead worker requestId =
          broker.ahead worker requestId := by
      apply ahead_of_outbox
      · rfl
      · rw [hphase]
        rfl
    refine ⟨hsame.le, ?_⟩
    intro hwaiting
    simp [hphase] at hwaiting

structure Asking (config : BrokerConfig) (keys : Bool → List TensorKey)
    (row : Bool → PolicyRow A → TensorKey → V) (worker requestId : ℕ)
    (observation : IpcObservation A) (entries : BrokerLog A V)
    (broker : ModelBroker A V) : Prop where
  inv : BrokerInv config.simulators keys row config.eval entries broker
  looping : broker.phase.isOver = false
  requested : BrokerEvent.requested worker requestId observation ∈ entries
  free : ¬IsAnswered entries worker requestId

section Requests

variable {worker requestId : ℕ} {observation : IpcObservation A}

theorem Asking.waits
    (hasking : Asking config keys row worker requestId observation entries
      broker) : worker ∈ broker.active ∧
        ⟨worker, requestId, observation⟩ ∈ broker.held worker := by
  have hqueues := hasking.inv.queues (hasking.inv.noRaise hasking.looping).1
  rcases hqueues.pending worker requestId observation hasking.requested with
    hanswered | hwaits
  · exact absurd hanswered hasking.free
  · exact hwaits

theorem BrokerInv.answered_of_over
    (hinv : BrokerInv config.simulators keys row config.eval entries broker)
    (hover : broker.phase.isOver)
    (hrequested : BrokerEvent.requested worker requestId observation ∈
      entries) :
    LoopRaised entries ∨ IsAnswered entries worker requestId := by
  by_cases hraised : LoopRaised entries
  · exact .inl hraised
  · right
    have hended := (hinv.settled.mp hover).resolve_left hraised
    rcases (hinv.queues hraised).pending worker requestId observation
      hrequested with hanswered | ⟨hactive, _⟩
    · exact hanswered
    · rw [hinv.ended hended] at hactive
      cases hactive

theorem Asking.step (hmodel : model.RowWise keys row)
    (hasking : Asking config keys row worker requestId observation entries
      broker) (hstep : (brokerMachine config model).step broker label =
      some (more, next)) :
    (LoopRaised (entries ++ more) ∨
        IsAnswered (entries ++ more) worker requestId) ∨
      Asking config keys row worker requestId observation (entries ++ more)
          next ∧
        next.loopWork config.simulators
            (ModelBroker.ahead worker requestId) + label.isLoop.toNat ≤
          broker.loopWork config.simulators
            (ModelBroker.ahead worker requestId) := by
  have hnext := hasking.inv.step hmodel hstep
  have hrequested : BrokerEvent.requested worker requestId observation ∈
      entries ++ more := mem_append_left _ hasking.requested
  obtain ⟨hactive, hheld⟩ := hasking.waits
  by_cases hanswered : IsAnswered (entries ++ more) worker requestId
  · exact .inl (.inr hanswered)
  · cases hover : next.phase.isOver with
    | true => exact .inl (hnext.answered_of_over hover hrequested)
    | false =>
      have hfree : ¬IsAnswered more worker requestId := by
        intro hmore
        exact hanswered (isAnswered_append.mpr (.inr hmore))
      have hwork := loopWork_step hasking.inv hasking.looping
        (ModelBroker.ahead worker requestId) hstep
        (fun other hmove => (ahead_worker hheld hmove).le)
        (ahead_broker hmodel hasking.looping hactive hheld hfree)
      rcases hwork with hend | hlower
      · obtain ⟨hraised, hended⟩ := hnext.noRaise hover
        rw [loopRaised_append, not_or] at hraised
        rw [loopEnded_append, not_or] at hended
        tauto
      · exact .inr ⟨⟨hnext, hover, hrequested, hanswered⟩, hlower⟩

theorem answered_within (hmodel : model.RowWise keys row)
    (hinv : BrokerInv config.simulators keys row config.eval entries broker)
    (hrequested : BrokerEvent.requested worker requestId observation ∈
      entries) (hrun : Run (brokerMachine config model) broker events last)
    (hlong : broker.loopWork config.simulators
        (ModelBroker.ahead worker requestId) <
      events.countP (fun event => event.label.isLoop)) :
    LoopRaised (entries ++ log events) ∨
      IsAnswered (entries ++ log events) worker requestId := by
  have hlater : ∀ (entries output : BrokerLog A V),
      LoopRaised entries ∨ IsAnswered entries worker requestId →
        LoopRaised (entries ++ output) ∨
          IsAnswered (entries ++ output) worker requestId := by
    intro entries output hsettled
    rw [loopRaised_append, isAnswered_append]
    tauto
  by_cases hanswered : IsAnswered entries worker requestId
  · exact hlater _ _ (.inr hanswered)
  · cases hlooping : broker.phase.isOver with
    | true =>
      exact hlater _ _ (hinv.answered_of_over hlooping hrequested)
    | false =>
      have hmeasure := hrun.log_measure
        (Asking config keys row worker requestId observation)
        (fun entries => LoopRaised entries ∨
          IsAnswered entries worker requestId)
        (ModelBroker.loopWork config.simulators
          (ModelBroker.ahead worker requestId))
        BrokerLabel.isLoop entries hlater
        (fun _ _ _ _ _ hasking hstep => hasking.step hmodel hstep)
        ⟨hinv, hlooping, hrequested, hanswered⟩
      rcases hmeasure with hsettled | ⟨_, hfew⟩
      · exact hsettled
      · omega

end Requests

/-! ## The contract in every reachable state -/

/-- Each answer has the model rows of its own request, no request is answered
twice or dropped, and the loop ends exactly when every simulator has sent its
terminal message or an error is raised. -/
theorem shared_model_routing (hmodel : model.RowWise keys row)
    {events : List (Event (ModelBroker A V) (BrokerLabel A)
      (List (BrokerEvent A V)))} {final : ModelBroker A V}
    (hrun : Run (brokerMachine config model) (ModelBroker.start config)
      events final) :
    BrokerContract config model keys row (log events) final := by
  have hinv := brokerInv_of_run hmodel hrun
  constructor
  · exact hinv.lawful
  · exact hinv.workers.unique
  · intro worker requestId observation hrequested
    by_cases hraised : LoopRaised (log events)
    · exact .inl hraised
    · exact .inr ((hinv.queues hraised).pending worker requestId observation
        hrequested)
  · intro worker requestId observation hrequested
    refine ⟨final.loopWork config.simulators
      (ModelBroker.ahead worker requestId), ?_⟩
    intro more last hmore hlong
    exact answered_within hmodel hinv hrequested hmore hlong
  · intro hover
    by_cases hraised : LoopRaised (log events)
    · exact .inl hraised
    · right
      intro worker hworker
      apply (hinv.queues hraised).inactive worker hworker
      rw [hinv.ended ((hinv.settled.mp hover).resolve_left hraised)]
      exact Finset.notMem_empty worker
  · intro hraised
    exact hinv.settled.mpr (.inl hraised)
  · intro hsent
    refine ⟨final.loopWork config.simulators
      (ModelBroker.leftOvers config.simulators), ?_⟩
    intro more last hmore hlong
    have hend := ends_after_terminals hmodel hinv hsent hmore hlong
    have hlast := brokerInv_of_run hmodel (hrun.append hmore)
    rw [log_append] at hlast
    exact hlast.settled.mpr hend
  · exact exists_loop_step

end Contract

/-! ## Two simulators in one batch -/

def stateModel : SharedModel ℕ (TensorKey × ℕ) where
  inputShape _ := []
  outputShape value := if value.1 = .action then [24, 14] else [32, 14]
  sacSampleActions batch _ := some (([.action, .fullAction] :
    List TensorKey).map fun key =>
      (key, batch.rows.map fun input => (key, input.observation.state)))

theorem stateModel_rowWise : stateModel.RowWise
    (fun _ => [.action, .fullAction])
    (fun _ input key => (key, input.observation.state)) := by
  intro batch eval output houtput
  exact (Option.some.inj houtput).symm

def stateObservation (states : List ℕ) : IpcObservation ℕ where
  observation := states.map fun state => ⟨0, 0, 0, state⟩
  task := states.map fun _ => "stack"
  identity field :=
    if field = .policySeed then some (states.map fun state => (state : ℤ))
    else none

def twoSimulators : BrokerConfig where
  simulators := 2
  policyMicrobatchSize := 2
  actorObjective := .fpo

def sharedInferenceLabels : List (BrokerLabel ℕ) :=
  [.infer 0 (stateObservation [7]), .wait [0] false,
    .infer 1 (stateObservation [8, 9]), .coalesce [1], .inference,
    .send, .send, .receive 1, .finish 1 ⟨.conditionDrained, none, 1⟩,
    .send, .receive 0, .finish 0 ⟨.windowClosed, none, 1⟩,
    .close 1 false, .wait [1, 0] false, .inference, .leave, .hangUp]

theorem shared_model_routing_two_simulators : ∃ events final,
      Run (brokerMachine twoSimulators stateModel)
        (ModelBroker.start twoSimulators) events final ∧
      events.map Event.label = sharedInferenceLabels ∧
      BrokerContract twoSimulators stateModel
        (fun _ => [.action, .fullAction])
        (fun _ input key => (key, input.observation.state)) (log events)
        final := by
  have henabled : ((brokerMachine twoSimulators stateModel).exec
      (ModelBroker.start twoSimulators) sharedInferenceLabels).isSome := by
    decide +kernel
  obtain ⟨⟨events, final⟩, hexec⟩ := Option.isSome_iff_exists.mp henabled
  have hrun := Machine.run_of_exec hexec
  exact ⟨events, final, hrun, Machine.labels_of_exec hexec,
    shared_model_routing stateModel_rowWise hrun⟩

end VerlVla
