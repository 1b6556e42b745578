import VerlVla.BrokerMoves
import VerlVla.TransitionLog

/-!
# Every request is answered once, with its own rows

A request waits in the pipe of its simulator or in the batch of the broker
until it is answered, and its simulator is active until then.  The loop ends
when every simulator has finished or an error is raised.
-/

namespace VerlVla

open List hiding after all cons head mem_of_head? nil

open Transition

variable {A V : Type}

abbrev BrokerLog (A V : Type) : Type := List (BrokerEvent A V)

section Log

variable (entries : BrokerLog A V)

def IsAnswered (worker requestId : ℕ) : Prop :=
  ∃ tensors, BrokerEvent.answered worker requestId tensors ∈ entries

/-- The simulator has sent a message that ends it. -/
def SentTerminal (worker : ℕ) : Prop :=
  (∃ result, BrokerEvent.finished worker result ∈ entries) ∨
    BrokerEvent.crashed worker ∈ entries

def LoopRaised : Prop := ∃ error, BrokerEvent.raised error ∈ entries

def LoopEnded : Prop := ∃ summary, BrokerEvent.ended summary ∈ entries

def routingLaw (keys : Bool → List TensorKey)
    (row : Bool → PolicyRow A → TensorKey → V) (eval : Bool) :
    BrokerEvent A V → Prop
  | .answered worker requestId tensors =>
    (∃ observation,
      BrokerEvent.requested worker requestId observation ∈ entries ∧
        tensors = modelRows keys row eval observation) ∧
      ¬IsAnswered entries worker requestId
  | _ => True

end Log

/-- The requests that the broker is about to answer. -/
def BrokerPhase.batch : BrokerPhase A V → List (InferMessage A)
  | .gathering messages => messages
  | .sending _ pairs => pairs.map Prod.fst
  | _ => []

/-- The requests of a simulator without an answer. -/
def ModelBroker.held (broker : ModelBroker A V) (worker : ℕ) :
    List (InferMessage A) :=
  broker.phase.batch.filter (fun message => message.workerId = worker) ++
    (broker.outbox worker).filterMap WorkerMessage.infer?

/-! ## The invariant -/

structure SimulatorsInv (entries : BrokerLog A V)
    (broker : ModelBroker A V) : Prop where
  fresh : ∀ worker requestId observation,
    BrokerEvent.requested worker requestId observation ∈ entries →
      requestId < (broker.workers worker).requestIndex
  unique : ∀ worker requestId observation other,
    BrokerEvent.requested worker requestId observation ∈ entries →
      BrokerEvent.requested worker requestId other ∈ entries →
        observation = other
  settled : ∀ worker, SentTerminal entries worker →
    (broker.workers worker).phase.isOver

/-- The pipes and the batch while no error is raised. -/
structure QueuesInv (simulators : ℕ) (entries : BrokerLog A V)
    (broker : ModelBroker A V) : Prop where
  held : ∀ worker, ∀ message ∈ broker.held worker, message.workerId = worker ∧
      BrokerEvent.requested worker message.requestId message.observation ∈
        entries ∧
      ¬IsAnswered entries worker message.requestId
  nodup : ∀ worker, ((broker.held worker).map InferMessage.requestId).Nodup
  pending : ∀ worker requestId observation,
    BrokerEvent.requested worker requestId observation ∈ entries →
      IsAnswered entries worker requestId ∨ worker ∈ broker.active ∧
          ⟨worker, requestId, observation⟩ ∈ broker.held worker
  sender : ∀ worker, ∀ message ∈ broker.outbox worker, message.sender = worker
  done : ∀ worker other result,
    WorkerMessage.done other result ∈ broker.outbox worker →
      BrokerEvent.finished other result ∈ entries
  order : ∀ worker, (broker.outbox worker).Pairwise fun before after =>
    before.isTerminal → after.isTerminal
  unsent : ∀ worker, (broker.workers worker).phase.isOver = false →
    ∀ message ∈ broker.outbox worker, message.isTerminal = false
  inactive : ∀ worker < simulators, worker ∉ broker.active →
    ∃ result, BrokerEvent.finished worker result ∈ entries
  unread : ∀ worker ∈ broker.active, SentTerminal entries worker →
    ∃ message ∈ broker.outbox worker, message.isTerminal
  bound : ∀ worker ∈ broker.active, worker < simulators

section Steps

variable {config : BrokerConfig} {model : SharedModel A V}
  {entries more : BrokerLog A V} {broker next : ModelBroker A V}
  {worker : ℕ}

theorem isAnswered_append : IsAnswered (entries ++ more) worker requestId ↔
      IsAnswered entries worker requestId ∨
        IsAnswered more worker requestId := by
  simp only [IsAnswered, mem_append, exists_or]

theorem sentTerminal_append : SentTerminal (entries ++ more) worker ↔
      SentTerminal entries worker ∨ SentTerminal more worker := by
  simp only [SentTerminal, mem_append, exists_or]
  tauto

theorem loopRaised_append :
    LoopRaised (entries ++ more) ↔ LoopRaised entries ∨ LoopRaised more := by
  simp only [LoopRaised, mem_append, exists_or]

theorem loopEnded_append :
    LoopEnded (entries ++ more) ↔ LoopEnded entries ∨ LoopEnded more := by
  simp only [LoopEnded, mem_append, exists_or]

/-! ## Steps of a simulator -/

theorem SimulatorsInv.afterWorker (hinv : SimulatorsInv entries broker)
    (hstep : WorkerStep worker broker more next) :
    SimulatorsInv (entries ++ more) next := by
  obtain ⟨posted, state, hmove, hworkers, _⟩ := hstep.move
  have hindex : (broker.workers worker).requestIndex ≤ state.requestIndex := by
    cases hmove with
    | asked => exact Nat.le_succ _
    | quiet state hindex => exact hindex
    | _ => exact le_rfl
  have hover : (broker.workers worker).phase.isOver → state.phase.isOver := by
    intro hover
    cases hmove with
    | asked observation hphase =>
      rw [hphase] at hover
      cases hover
    | quiet state hindex hkept => exact hkept hover
    | _ => rfl
  have hother : ∀ other, (broker.workers other).requestIndex ≤
      (next.workers other).requestIndex := by
    intro other
    rw [hworkers]
    by_cases heq : other = worker
    · subst heq
      rw [Function.update_self]
      exact hindex
    · rw [Function.update_of_ne heq]
  have hrequested : ∀ other requestId observation,
      BrokerEvent.requested other requestId observation ∈ more →
        other = worker ∧ requestId = (broker.workers worker).requestIndex ∧
          more = [.requested other requestId observation] ∧
          requestId < state.requestIndex := by
    intro other requestId observation hmember
    cases hmove with
    | asked asked hphase =>
      cases mem_singleton.mp hmember
      exact ⟨rfl, rfl, rfl, Nat.lt_succ_self _⟩
    | finished result | crashed => cases mem_singleton.mp hmember
    | late | quiet => cases hmember
  constructor
  · intro other requestId observation hmember
    rcases mem_append.mp hmember with hold | hnew
    · have hlt := hinv.fresh other requestId observation hold
      have hle := hother other
      omega
    · obtain ⟨rfl, _, _, hlt⟩ := hrequested other requestId observation hnew
      rw [hworkers, Function.update_self]
      exact hlt
  · intro other requestId observation second hfirst hsecond
    rcases mem_append.mp hfirst with hold | hnew
    · rcases mem_append.mp hsecond with hsold | hsnew
      · exact hinv.unique other requestId observation second hold hsold
      · have hlt := hinv.fresh other requestId observation hold
        obtain ⟨rfl, heq, _, _⟩ := hrequested other requestId second hsnew
        omega
    · obtain ⟨rfl, heq, hmore, _⟩ := hrequested other requestId observation hnew
      rcases mem_append.mp hsecond with hsold | hsnew
      · have hlt := hinv.fresh other requestId second hsold
        omega
      · rw [hmore] at hsnew
        cases mem_singleton.mp hsnew
        rfl
  · intro other hterminal
    rw [hworkers]
    rcases sentTerminal_append.mp hterminal with hold | hnew
    · have hphase := hinv.settled other hold
      by_cases heq : other = worker
      · subst heq
        rw [Function.update_self]
        exact hover hphase
      · rw [Function.update_of_ne heq]
        exact hphase
    · have hself : other = worker ∧ state.phase.isOver := by
        rcases hnew with ⟨result, hnew⟩ | hnew
        · cases hmove with
          | finished =>
            cases mem_singleton.mp hnew
            exact ⟨rfl, rfl⟩
          | asked | crashed => cases mem_singleton.mp hnew
          | late | quiet => cases hnew
        · cases hmove with
          | crashed =>
            cases mem_singleton.mp hnew
            exact ⟨rfl, rfl⟩
          | asked | finished => cases mem_singleton.mp hnew
          | late | quiet => cases hnew
      rw [hself.1, Function.update_self]
      exact hself.2

theorem WorkerMove.not_answered
    (hmove : WorkerMove worker before posted more state) (other : ℕ)
    (requestId : ℕ) : ¬IsAnswered more other requestId := by
  rintro ⟨tensors, hmember⟩
  cases hmove with
  | late | quiet => cases hmember
  | _ => cases mem_singleton.mp hmember

theorem held_of_outbox (hphase : next.phase.batch = broker.phase.batch)
    (houtbox : next.outbox other = broker.outbox other ++ posted) :
    next.held other =
      broker.held other ++ posted.filterMap WorkerMessage.infer? := by
  rw [ModelBroker.held, ModelBroker.held, hphase, houtbox,
    filterMap_append, append_assoc]

theorem held_of_outbox_eq (hphase : next.phase.batch = broker.phase.batch)
    (houtbox : next.outbox other = broker.outbox other) :
    next.held other = broker.held other := by
  rw [ModelBroker.held, ModelBroker.held, hphase, houtbox]

theorem WorkerStep.outbox_eq (hstep : WorkerStep worker broker more next) :
    ∃ posted, (∃ state,
        WorkerMove worker (broker.workers worker) posted more state ∧
        next.workers = Function.update broker.workers worker state) ∧
      next.outbox worker = broker.outbox worker ++ posted ∧
      ∀ other ≠ worker, next.outbox other = broker.outbox other := by
  obtain ⟨posted, state, hmove, hworkers, houtbox⟩ := hstep.move
  refine ⟨posted, ⟨state, hmove, hworkers⟩, ?_, ?_⟩
  · rw [houtbox, Function.update_self]
  · intro other hother
    rw [houtbox, Function.update_of_ne hother]

theorem QueuesInv.active_of_running
    (hsimulators : SimulatorsInv entries broker)
    (hqueues : QueuesInv config.simulators entries broker)
    (hworker : worker < config.simulators)
    (hphase : (broker.workers worker).phase = .running) :
    worker ∈ broker.active := by
  by_contra hinactive
  have hfinished := hqueues.inactive worker hworker hinactive
  have hover := hsimulators.settled worker (.inl hfinished)
  rw [hphase] at hover
  cases hover

theorem QueuesInv.asked
    (hlawful : ∀ worker requestId, IsAnswered entries worker requestId →
      requestId < (broker.workers worker).requestIndex)
    (hsimulators : SimulatorsInv entries broker)
    (hqueues : QueuesInv config.simulators entries broker)
    (hworker : worker < config.simulators)
    (hrunning : (broker.workers worker).phase = .running)
    (hphase : next.phase = broker.phase)
    (hactive : next.active = broker.active)
    (hworkers : next.workers = Function.update broker.workers worker
      ⟨.waiting (broker.workers worker).requestIndex,
        (broker.workers worker).requestIndex + 1⟩)
    (houtbox : next.outbox worker = broker.outbox worker ++
      [.infer ⟨worker, (broker.workers worker).requestIndex, observation⟩])
    (hothers : ∀ other ≠ worker, next.outbox other = broker.outbox other) :
    QueuesInv config.simulators (entries ++ [.requested worker
      (broker.workers worker).requestIndex observation]) next := by
  let index := (broker.workers worker).requestIndex
  have hbatch : next.phase.batch = broker.phase.batch := by rw [hphase]
  have hself : next.held worker =
      broker.held worker ++ [⟨worker, index, observation⟩] :=
    held_of_outbox hbatch houtbox
  have hother : ∀ other ≠ worker, next.held other = broker.held other := by
    intro other hother
    exact held_of_outbox_eq hbatch (hothers other hother)
  have hanswered : ∀ other requestId,
      IsAnswered (entries ++ [.requested worker index observation]) other
          requestId →
        IsAnswered entries other requestId := by
    intro other requestId hanswered
    rcases isAnswered_append.mp hanswered with hold | ⟨tensors, hnew⟩
    · exact hold
    · cases mem_singleton.mp hnew
  have hterminal : ∀ other,
      SentTerminal (entries ++ [.requested worker index observation]) other →
        SentTerminal entries other := by
    intro other hterminal
    rcases sentTerminal_append.mp hterminal with hold | ⟨result, hnew⟩ | hnew
    · exact hold
    · cases mem_singleton.mp hnew
    · cases mem_singleton.mp hnew
  have hmember : ∀ other, ∀ message ∈ next.outbox other,
      message ∈ broker.outbox other ∨
        message = .infer ⟨worker, index, observation⟩ ∧ other = worker := by
    intro other message hmessage
    by_cases heq : other = worker
    · subst heq
      rw [houtbox] at hmessage
      rcases mem_append.mp hmessage with hold | hnew
      · exact .inl hold
      · exact .inr ⟨mem_singleton.mp hnew, rfl⟩
    · rw [hothers other heq] at hmessage
      exact .inl hmessage
  constructor
  · intro other message hmessage
    have hold : ∀ message ∈ broker.held other, message.workerId = other ∧
        BrokerEvent.requested other message.requestId message.observation ∈
          entries ++ [.requested worker index observation] ∧
        ¬IsAnswered (entries ++ [.requested worker index observation]) other
          message.requestId := by
      intro message hmessage
      obtain ⟨howner, hrequested, hfree⟩ := hqueues.held other message hmessage
      exact ⟨howner, mem_append_left _ hrequested,
        fun hanswer => hfree (hanswered _ _ hanswer)⟩
    by_cases heq : other = worker
    · subst heq
      rw [hself] at hmessage
      rcases mem_append.mp hmessage with hmessage | hnew
      · exact hold message hmessage
      · cases mem_singleton.mp hnew
        refine ⟨rfl, mem_append_right _ (mem_singleton_self _), ?_⟩
        intro hanswer
        have hlt := hlawful other index (hanswered _ _ hanswer)
        exact absurd hlt (lt_irrefl _)
    · rw [hother other heq] at hmessage
      exact hold message hmessage
  · intro other
    by_cases heq : other = worker
    · subst heq
      rw [hself, map_append, map_singleton]
      apply Nodup.append (hqueues.nodup other) (nodup_singleton _)
      intro requestId hleft hright
      cases mem_singleton.mp hright
      obtain ⟨message, hmessage, hid⟩ := mem_map.mp hleft
      obtain ⟨_, hrequested, _⟩ := hqueues.held other message hmessage
      have hlt := hsimulators.fresh _ _ _ hrequested
      rw [hid] at hlt
      exact absurd hlt (lt_irrefl _)
    · rw [hother other heq]
      exact hqueues.nodup other
  · intro other requestId seen hrequested
    rw [hactive]
    rcases mem_append.mp hrequested with hold | hnew
    · rcases hqueues.pending other requestId seen hold with hdone | hpending
      · exact .inl (isAnswered_append.mpr (.inl hdone))
      · refine .inr ⟨hpending.1, ?_⟩
        by_cases heq : other = worker
        · subst heq
          rw [hself]
          exact mem_append_left _ hpending.2
        · rw [hother other heq]
          exact hpending.2
    · cases mem_singleton.mp hnew
      refine .inr ⟨?_, ?_⟩
      · exact hqueues.active_of_running hsimulators hworker hrunning
      · rw [hself]
        exact mem_append_right _ (mem_singleton_self _)
  · intro other message hmessage
    rcases hmember other message hmessage with hold | ⟨rfl, rfl⟩
    · exact hqueues.sender other message hold
    · rfl
  · intro other sender result hmessage
    rcases hmember other _ hmessage with hold | ⟨hnew, _⟩
    · exact mem_append_left _ (hqueues.done other sender result hold)
    · cases hnew
  · intro other
    by_cases heq : other = worker
    · subst heq
      rw [houtbox, pairwise_append]
      refine ⟨hqueues.order other, pairwise_singleton _ _, ?_⟩
      intro before hbefore _ _ hterminal
      have hunsent := hqueues.unsent other (by rw [hrunning]; rfl) before hbefore
      simp [hunsent] at hterminal
    · rw [hothers other heq]
      exact hqueues.order other
  · intro other hover message hmessage
    rcases hmember other message hmessage with hold | ⟨rfl, rfl⟩
    · apply hqueues.unsent other _ message hold
      by_cases heq : other = worker
      · subst heq
        rw [hrunning]
        rfl
      · rw [hworkers, Function.update_of_ne heq] at hover
        exact hover
    · rfl
  · intro other hlt hinactive
    rw [hactive] at hinactive
    obtain ⟨result, hfinished⟩ := hqueues.inactive other hlt hinactive
    exact ⟨result, mem_append_left _ hfinished⟩
  · intro other hactiveOther hsent
    rw [hactive] at hactiveOther
    obtain ⟨message, hmessage, hterm⟩ :=
      hqueues.unread other hactiveOther (hterminal other hsent)
    refine ⟨message, ?_, hterm⟩
    by_cases heq : other = worker
    · subst heq
      rw [houtbox]
      exact mem_append_left _ hmessage
    · rw [hothers other heq]
      exact hmessage
  · intro other hmember
    rw [hactive] at hmember
    exact hqueues.bound other hmember

structure WorkerTold (worker : ℕ) (before state : SimulatorWorker)
    (posted : List (WorkerMessage A)) (more : BrokerLog A V) : Prop where
  terminal : ∀ message ∈ posted, message.isTerminal ∧ message.sender = worker
  done : ∀ other result, WorkerMessage.done other result ∈ posted →
    BrokerEvent.finished other result ∈ more
  requested : ∀ other requestId observation,
    BrokerEvent.requested other requestId observation ∉ more
  sent : ∀ other, SentTerminal more other → other = worker ∧ posted ≠ []
  settled : state.phase.isOver = false →
    before.phase.isOver = false ∧ posted = []

theorem WorkerTold.of_move (hmove : WorkerMove worker before posted more state)
    (hasked : ∀ observation, more ≠
      [.requested worker before.requestIndex observation]) :
    WorkerTold worker before state posted more := by
  cases hmove with
  | asked observation => exact absurd rfl (hasked observation)
  | finished result hphase =>
    constructor
    · intro message hmessage
      cases mem_singleton.mp hmessage
      exact ⟨rfl, rfl⟩
    · intro other found hmember
      cases mem_singleton.mp hmember
      exact mem_singleton_self _
    · intro other requestId observation hmember
      cases mem_singleton.mp hmember
    · rintro other (⟨found, hmember⟩ | hmember)
      · cases mem_singleton.mp hmember
        exact ⟨rfl, cons_ne_nil _ _⟩
      · cases mem_singleton.mp hmember
    · exact nofun
  | crashed hphase =>
    constructor
    · intro message hmessage
      cases mem_singleton.mp hmessage
      exact ⟨rfl, rfl⟩
    · intro other found hmember
      cases mem_singleton.mp hmember
    · intro other requestId observation hmember
      cases mem_singleton.mp hmember
    · rintro other (⟨found, hmember⟩ | hmember)
      · cases mem_singleton.mp hmember
      · cases mem_singleton.mp hmember
        exact ⟨rfl, cons_ne_nil _ _⟩
    · exact nofun
  | late hphase =>
    constructor
    · intro message hmessage
      cases mem_singleton.mp hmessage
      exact ⟨rfl, rfl⟩
    · intro other found hmember
      cases mem_singleton.mp hmember
    · exact nofun
    · rintro other (⟨found, hmember⟩ | hmember)
      · cases hmember
      · cases hmember
    · exact nofun
  | quiet state hindex hkept =>
    constructor
    · exact nofun
    · exact nofun
    · exact nofun
    · rintro other (⟨found, hmember⟩ | hmember)
      · cases hmember
      · cases hmember
    · intro hover
      constructor
      · by_contra hbefore
        rw [Bool.not_eq_false] at hbefore
        rw [hkept hbefore] at hover
        cases hover
      · rfl

theorem infer?_of_isTerminal {message : WorkerMessage A}
    (hterminal : message.isTerminal) : message.infer? = none := by
  cases message with
  | infer request => cases hterminal
  | done sender result | error sender => rfl

theorem QueuesInv.told {posted : List (WorkerMessage A)}
    (hqueues : QueuesInv config.simulators entries broker)
    (htold : WorkerTold worker (broker.workers worker) state posted more)
    (hanswered : ∀ other requestId, ¬IsAnswered more other requestId)
    (hphase : next.phase = broker.phase)
    (hactive : next.active = broker.active)
    (hworkers : next.workers = Function.update broker.workers worker state)
    (houtbox : next.outbox worker = broker.outbox worker ++ posted)
    (hothers : ∀ other ≠ worker, next.outbox other = broker.outbox other) :
    QueuesInv config.simulators (entries ++ more) next := by
  have hbatch : next.phase.batch = broker.phase.batch := by rw [hphase]
  have hnone : posted.filterMap WorkerMessage.infer? = [] := by
    apply filterMap_eq_nil_iff.mpr
    intro message hmessage
    exact infer?_of_isTerminal (htold.terminal message hmessage).1
  have hheld : ∀ other, next.held other = broker.held other := by
    intro other
    by_cases heq : other = worker
    · subst heq
      rw [held_of_outbox hbatch houtbox, hnone, append_nil]
    · exact held_of_outbox_eq hbatch (hothers other heq)
  have hfree : ∀ other requestId,
      IsAnswered (entries ++ more) other requestId ↔
        IsAnswered entries other requestId := by
    intro other requestId
    rw [isAnswered_append, or_iff_left (hanswered other requestId)]
  have hmember : ∀ other, ∀ message ∈ next.outbox other,
      message ∈ broker.outbox other ∨ message ∈ posted ∧ other = worker := by
    intro other message hmessage
    by_cases heq : other = worker
    · subst heq
      rw [houtbox] at hmessage
      rcases mem_append.mp hmessage with hold | hnew
      · exact .inl hold
      · exact .inr ⟨hnew, rfl⟩
    · rw [hothers other heq] at hmessage
      exact .inl hmessage
  constructor
  · intro other message hmessage
    rw [hheld] at hmessage
    obtain ⟨howner, hrequested, hpending⟩ :=
      hqueues.held other message hmessage
    rw [hfree]
    exact ⟨howner, mem_append_left _ hrequested, hpending⟩
  · intro other
    rw [hheld]
    exact hqueues.nodup other
  · intro other requestId observation hrequested
    rw [hfree, hactive, hheld]
    apply hqueues.pending
    rcases mem_append.mp hrequested with hold | hnew
    · exact hold
    · exact absurd hnew (htold.requested other requestId observation)
  · intro other message hmessage
    rcases hmember other message hmessage with hold | ⟨hnew, rfl⟩
    · exact hqueues.sender other message hold
    · exact (htold.terminal message hnew).2
  · intro other sender result hmessage
    rcases hmember other _ hmessage with hold | ⟨hnew, _⟩
    · exact mem_append_left _ (hqueues.done other sender result hold)
    · exact mem_append_right _ (htold.done sender result hnew)
  · intro other
    by_cases heq : other = worker
    · subst heq
      rw [houtbox, pairwise_append]
      refine ⟨hqueues.order other, ?_, ?_⟩
      · apply pairwise_of_forall_mem_list
        intro before _ after hafter _
        exact (htold.terminal after hafter).1
      · intro before _ after hafter _
        exact (htold.terminal after hafter).1
    · rw [hothers other heq]
      exact hqueues.order other
  · intro other hover message hmessage
    by_cases heq : other = worker
    · subst heq
      rw [hworkers, Function.update_self] at hover
      obtain ⟨hbefore, rfl⟩ := htold.settled hover
      rw [houtbox, append_nil] at hmessage
      exact hqueues.unsent other hbefore message hmessage
    · rw [hworkers, Function.update_of_ne heq] at hover
      rw [hothers other heq] at hmessage
      exact hqueues.unsent other hover message hmessage
  · intro other hlt hinactive
    rw [hactive] at hinactive
    obtain ⟨result, hfinished⟩ := hqueues.inactive other hlt hinactive
    exact ⟨result, mem_append_left _ hfinished⟩
  · intro other hmemberActive hsent
    rw [hactive] at hmemberActive
    rcases sentTerminal_append.mp hsent with hold | hnew
    · obtain ⟨message, hmessage, hterm⟩ :=
        hqueues.unread other hmemberActive hold
      refine ⟨message, ?_, hterm⟩
      by_cases heq : other = worker
      · subst heq
        rw [houtbox]
        exact mem_append_left _ hmessage
      · rw [hothers other heq]
        exact hmessage
    · obtain ⟨rfl, hsome⟩ := htold.sent other hnew
      obtain ⟨message, hmessage⟩ := exists_mem_of_ne_nil _ hsome
      refine ⟨message, ?_, (htold.terminal message hmessage).1⟩
      rw [houtbox]
      exact mem_append_right _ hmessage
  · intro other hmemberActive
    rw [hactive] at hmemberActive
    exact hqueues.bound other hmemberActive

theorem QueuesInv.afterWorker
    (hanswers : ∀ worker requestId, IsAnswered entries worker requestId →
      requestId < (broker.workers worker).requestIndex)
    (hsimulators : SimulatorsInv entries broker)
    (hqueues : QueuesInv config.simulators entries broker)
    (hworker : worker < config.simulators)
    (hstep : WorkerStep worker broker more next) :
    QueuesInv config.simulators (entries ++ more) next := by
  obtain ⟨posted, ⟨state, hmove, hworkers⟩, houtbox, hothers⟩ :=
    hstep.outbox_eq
  by_cases hasked : ∃ observation, more =
      [.requested worker (broker.workers worker).requestIndex observation]
  · obtain ⟨observation, rfl⟩ := hasked
    cases hmove with
    | asked observation hrunning =>
      exact hqueues.asked hanswers hsimulators hworker hrunning hstep.phase
        hstep.active hworkers houtbox hothers
  · rw [not_exists] at hasked
    have htold := WorkerTold.of_move hmove hasked
    exact hqueues.told htold hmove.not_answered hstep.phase hstep.active
      hworkers houtbox hothers

/-! ## Collecting requests -/

theorem headsOf_cons {β : Type} (first : ℕ) (ready : List ℕ)
    (pipes : Pipes (WorkerMessage A)) (f : WorkerMessage A → Option β) :
    headsOf (first :: ready) pipes f =
      ((pipes first).head?.bind f).toList ++ headsOf ready pipes f := by
  rw [headsOf, headsOf, filterMap_cons]
  cases (pipes first).head?.bind f <;> rfl

theorem filter_headsOf {ready : List ℕ} {pipes : Pipes (WorkerMessage A)}
    (hnodup : ready.Nodup)
    (howner : ∀ other ∈ ready, ∀ message, (pipes other).head?.bind
      WorkerMessage.infer? = some message → message.workerId = other)
    (worker : ℕ) :
    (headsOf ready pipes WorkerMessage.infer?).filter
        (fun message => message.workerId = worker) =
      if worker ∈ ready then
        ((pipes worker).head?.bind WorkerMessage.infer?).toList
      else [] := by
  induction ready with
  | nil => rfl
  | cons first ready ih =>
    obtain ⟨hfresh, hnodup⟩ := nodup_cons.mp hnodup
    have hrest := ih hnodup fun other hother =>
      howner other (mem_cons_of_mem first hother)
    have hfirst := howner first mem_cons_self
    rw [headsOf_cons, filter_append, hrest]
    by_cases heq : worker = first
    · subst heq
      rw [if_neg hfresh, if_pos mem_cons_self, append_nil]
      cases hhead : (pipes worker).head?.bind WorkerMessage.infer? with
      | none => rfl
      | some message => simp [hfirst message hhead]
    · have hnone : ((pipes first).head?.bind
          WorkerMessage.infer?).toList.filter
            (fun message => message.workerId = worker) = [] := by
        cases hhead : (pipes first).head?.bind WorkerMessage.infer? with
        | none => rfl
        | some message =>
          have hne : ¬first = worker := fun hsame => heq hsame.symm
          simp [hfirst message hhead, hne]
      rw [hnone, nil_append]
      simp only [mem_cons, heq, false_or]

theorem batch_of_collects {messages : List (InferMessage A)}
    (hcollects : broker.phase.Collects messages) :
    broker.phase.batch = messages := by
  rcases hcollects with ⟨hphase, rfl⟩ | hphase
  · rw [hphase]
    rfl
  · rw [hphase]
    rfl

section Collect

variable {messages : List (InferMessage A)} {ready : List ℕ}
  {rest : Pipes (WorkerMessage A)} {after : Intake A}

theorem mem_of_head? {pipes : Pipes (WorkerMessage A)} {other : ℕ}
    {message : WorkerMessage A}
    (hhead : (pipes other).head? = some message) : message ∈ pipes other :=
  mem_of_mem_head? hhead

section

variable
  (hsender : ∀ worker, ∀ message ∈ broker.outbox worker, message.sender = worker)

include hsender

theorem headsOf_owner (other : ℕ) (message : InferMessage A)
    (hhead : (broker.outbox other).head?.bind WorkerMessage.infer? =
      some message) : message.workerId = other := by
  obtain ⟨first, hfirst, hinfer⟩ := Option.bind_eq_some_iff.mp hhead
  have howner := hsender other first (mem_of_head? hfirst)
  cases first with
  | infer request =>
    cases hinfer
    exact howner
  | done sender result | error sender => cases hinfer

theorem held_collect
    (hcollects : broker.phase.Collects messages) (hnodup : ready.Nodup)
    (hreceived : Received ready broker.outbox
      ⟨broker.active, broker.results, messages⟩ rest after) (other : ℕ) :
    ({ broker with
        outbox := rest
        active := after.active
        results := after.results
        phase := .gathering after.messages } : ModelBroker A V).held other =
      broker.held other := by
  have hfilter := filter_headsOf hnodup
    (fun worker _ => headsOf_owner hsender worker) other
  rw [ModelBroker.held, ModelBroker.held, batch_of_collects hcollects]
  simp only [BrokerPhase.batch, hreceived.messages, hreceived.rest,
    filter_append, append_assoc, hfilter, popped]
  congr 1
  by_cases hother : other ∈ ready
  · rw [if_pos hother, if_pos hother]
    cases houtbox : broker.outbox other with
    | nil => rfl
    | cons message others =>
      cases message <;> rfl
  · rw [if_neg hother, if_neg hother]
    rfl

theorem done_of_left (hreceived : Received ready broker.outbox
      ⟨broker.active, broker.results, messages⟩ rest after) {other : ℕ}
    (hactive : other ∈ broker.active) (hleft : other ∉ after.active) :
    other ∈ ready ∧ ∃ result, (broker.outbox other).head? =
      some (.done other result) := by
  rw [hreceived.active, Finset.mem_sdiff, not_and_not_right] at hleft
  have hdone := mem_toFinset.mp (hleft hactive)
  obtain ⟨reader, hreader, hhead⟩ := mem_filterMap.mp hdone
  obtain ⟨message, hmessage, hby⟩ := Option.bind_eq_some_iff.mp hhead
  have howner := hsender reader message (mem_of_head? hmessage)
  cases message with
  | infer request | error sender => cases hby
  | done sender result =>
    cases hby
    cases howner
    exact ⟨hreader, result, hmessage⟩

end

theorem mem_rest (hreceived : Received ready broker.outbox
      ⟨broker.active, broker.results, messages⟩ rest after) {other : ℕ}
    {message : WorkerMessage A} (hmessage : message ∈ rest other) :
    message ∈ broker.outbox other := by
  rw [hreceived.rest, popped] at hmessage
  by_cases hother : other ∈ ready
  · rw [if_pos hother] at hmessage
    exact mem_of_mem_tail hmessage
  · rw [if_neg hother] at hmessage
    exact hmessage

theorem QueuesInv.collect
    (hqueues : QueuesInv config.simulators entries broker)
    (hcollects : broker.phase.Collects messages)
    (hall : broker.Ready (broker.active \ requestedWorkers messages) ready)
    (hreceived : Received ready broker.outbox
      ⟨broker.active, broker.results, messages⟩ rest after) :
    QueuesInv config.simulators entries
      { broker with
        outbox := rest
        active := after.active
        results := after.results
        phase := .gathering after.messages } := by
  have hheld := held_collect hqueues.sender hcollects hall.1 hreceived
  have hsubset : after.active ⊆ broker.active := by
    rw [hreceived.active]
    exact Finset.sdiff_subset
  have hcandidate : ∀ other ∈ ready, other ∉ requestedWorkers messages := by
    intro other hother
    have hmember : other ∈ ready.toFinset := mem_toFinset.mpr hother
    rw [hall.2, Finset.mem_filter, Finset.mem_sdiff] at hmember
    exact hmember.1.2
  constructor
  · intro other message hmessage
    rw [hheld] at hmessage
    exact hqueues.held other message hmessage
  · intro other
    rw [hheld]
    exact hqueues.nodup other
  · intro other requestId observation hrequested
    rw [hheld]
    rcases hqueues.pending other requestId observation hrequested with
      hdone | ⟨hactive, hpending⟩
    · exact .inl hdone
    · by_cases hleft : other ∈ after.active
      · exact .inr ⟨hleft, hpending⟩
      · -- The last message of a simulator comes after all its requests.
        obtain ⟨hready, result, hhead⟩ :=
          done_of_left hqueues.sender hreceived hactive hleft
        exfalso
        have horder := hqueues.order other
        rw [ModelBroker.held, batch_of_collects hcollects] at hpending
        rcases mem_append.mp hpending with hbatch | houtbox
        · rw [mem_filter] at hbatch
          apply hcandidate other hready
          rw [requestedWorkers, mem_toFinset]
          have hid : other = InferMessage.workerId
              ⟨other, requestId, observation⟩ := rfl
          exact mem_map_of_mem hbatch.1
        · obtain ⟨message, hmessage, hinfer⟩ := mem_filterMap.mp houtbox
          cases hpipe : broker.outbox other with
          | nil =>
            simp [hpipe] at hmessage
          | cons first others =>
            rw [hpipe] at hhead horder hmessage
            cases hhead
            rcases mem_cons.mp hmessage with rfl | hlater
            · cases hinfer
            · have hterminal := (pairwise_cons.mp horder).1 message hlater rfl
              rw [infer?_of_isTerminal hterminal] at hinfer
              cases hinfer
  · intro other message hmessage
    exact hqueues.sender other message (mem_rest hreceived hmessage)
  · intro other sender result hmessage
    exact hqueues.done other sender result (mem_rest hreceived hmessage)
  · intro other
    have horder := hqueues.order other
    simp only [hreceived.rest, popped]
    by_cases hother : other ∈ ready
    · rw [if_pos hother]
      exact horder.sublist (tail_sublist _)
    · rw [if_neg hother]
      exact horder
  · intro other hover message hmessage
    exact hqueues.unsent other hover message (mem_rest hreceived hmessage)
  · intro other hlt hinactive
    by_cases hactive : other ∈ broker.active
    · obtain ⟨_, result, hhead⟩ :=
        done_of_left hqueues.sender hreceived hactive hinactive
      exact ⟨result, hqueues.done other other result (mem_of_head? hhead)⟩
    · exact hqueues.inactive other hlt hactive
  · intro other hactive hsent
    obtain ⟨message, hmessage, hterminal⟩ :=
      hqueues.unread other (hsubset hactive) hsent
    simp only [hreceived.rest, popped]
    by_cases hother : other ∈ ready
    · rw [if_pos hother]
      obtain ⟨first, hhead, herror⟩ := hreceived.heads other hother
      cases hpipe : broker.outbox other with
      | nil =>
        simp [hpipe] at hmessage
      | cons head others =>
        rw [hpipe] at hhead hmessage
        cases hhead
        rcases mem_cons.mp hmessage with rfl | hlater
        · -- A terminal message that was read ends the simulator.
          exfalso
          rw [hreceived.active, Finset.mem_sdiff] at hactive
          apply hactive.2
          rw [mem_toFinset, headsOf, mem_filterMap]
          refine ⟨other, hother, ?_⟩
          have howner := hqueues.sender other message (by
            rw [hpipe]
            exact mem_cons_self)
          rw [hpipe]
          cases message with
          | infer request => cases hterminal
          | error sender => cases herror
          | done sender result =>
            cases howner
            rfl
        · exact ⟨message, hlater, hterminal⟩
    · rw [if_neg hother]
      exact ⟨message, hmessage, hterminal⟩
  · intro other hactive
    exact hqueues.bound other (hsubset hactive)

end Collect

/-! ## Answering -/

theorem QueuesInv.kept (hqueues : QueuesInv config.simulators entries broker)
    (hbatch : next.phase.batch = broker.phase.batch)
    (hworkers : next.workers = broker.workers)
    (houtbox : next.outbox = broker.outbox)
    (hactive : next.active = broker.active)
    (hmore : ∀ entry ∈ more, ∃ summary, entry = .ended summary) :
    QueuesInv config.simulators (entries ++ more) next := by
  have hheld : ∀ other, next.held other = broker.held other := by
    intro other
    exact held_of_outbox_eq hbatch (by rw [houtbox])
  have hold : ∀ entry ∈ entries ++ more,
      (∀ summary, entry ≠ .ended summary) → entry ∈ entries := by
    intro entry hentry hne
    rcases mem_append.mp hentry with hold | hnew
    · exact hold
    · obtain ⟨summary, heq⟩ := hmore entry hnew
      exact absurd heq (hne summary)
  constructor
  · intro other message hmessage
    rw [hheld] at hmessage
    obtain ⟨howner, hrequested, hfree⟩ := hqueues.held other message hmessage
    refine ⟨howner, mem_append_left _ hrequested, ?_⟩
    rintro ⟨tensors, hanswer⟩
    exact hfree ⟨tensors, hold _ hanswer (fun _ heq => nomatch heq)⟩
  · intro other
    rw [hheld]
    exact hqueues.nodup other
  · intro other requestId observation hrequested
    rw [hheld, hactive]
    have hbefore := hold _ hrequested (fun _ heq => nomatch heq)
    rcases hqueues.pending other requestId observation hbefore with
      ⟨tensors, hdone⟩ | hpending
    · exact .inl ⟨tensors, mem_append_left _ hdone⟩
    · exact .inr hpending
  · rw [houtbox]
    exact hqueues.sender
  · intro other sender result hmessage
    rw [houtbox] at hmessage
    exact mem_append_left _ (hqueues.done other sender result hmessage)
  · rw [houtbox]
    exact hqueues.order
  · rw [houtbox, hworkers]
    exact hqueues.unsent
  · intro other hlt hinactive
    rw [hactive] at hinactive
    obtain ⟨result, hfinished⟩ := hqueues.inactive other hlt hinactive
    exact ⟨result, mem_append_left _ hfinished⟩
  · intro other hother hsent
    rw [hactive] at hother
    rw [houtbox]
    apply hqueues.unread other hother
    rcases hsent with ⟨result, hfinished⟩ | hcrashed
    · exact .inl ⟨result, hold _ hfinished (fun _ heq => nomatch heq)⟩
    · exact .inr (hold _ hcrashed (fun _ heq => nomatch heq))
  · rw [hactive]
    exact hqueues.bound

section Answer

variable {outputs : TensorDict V} {message : InferMessage A} {slice : ℕ × ℕ}
  {pairs : List (InferMessage A × (ℕ × ℕ))} {inbox : Pipes (BrokerMessage V)}

theorem held_answer (inbox : Pipes (BrokerMessage V))
    (hphase : broker.phase = .sending outputs ((message, slice) :: pairs))
    (other : ℕ) :
    broker.held other = (if message.workerId = other then [message] else []) ++
        ({ broker with inbox := inbox, phase := .sending outputs pairs } :
          ModelBroker A V).held other := by
  rw [ModelBroker.held, ModelBroker.held, hphase]
  by_cases hother : message.workerId = other
  · simp [BrokerPhase.batch, hother]
  · simp [BrokerPhase.batch, hother]

theorem QueuesInv.answer (hqueues : QueuesInv config.simulators entries broker)
    (hphase : broker.phase = .sending outputs ((message, slice) :: pairs)) :
    QueuesInv config.simulators
      (entries ++ [.answered message.workerId message.requestId tensors])
      { broker with inbox := inbox, phase := .sending outputs pairs } := by
  have hheld := held_answer inbox hphase
  have hself : ∀ other requestId found, BrokerEvent.answered other requestId
      found ∈ entries ++ [.answered message.workerId message.requestId
        tensors] → BrokerEvent.answered other requestId found ∈ entries ∨
          other = message.workerId ∧ requestId = message.requestId := by
    intro other requestId found hmember
    rcases mem_append.mp hmember with hold | hnew
    · exact .inl hold
    · cases mem_singleton.mp hnew
      exact .inr ⟨rfl, rfl⟩
  have hold : ∀ entry ∈ entries ++ [BrokerEvent.answered message.workerId
      message.requestId tensors],
      (∀ other requestId found, entry ≠ .answered other requestId found) →
        entry ∈ entries := by
    intro entry hentry hne
    rcases mem_append.mp hentry with hold | hnew
    · exact hold
    · exact absurd (mem_singleton.mp hnew) (hne _ _ _)
  constructor
  · intro other waiting hwaiting
    have hbefore : waiting ∈ broker.held other := by
      rw [hheld]
      exact mem_append_right _ hwaiting
    obtain ⟨howner, hrequested, hfree⟩ := hqueues.held other waiting hbefore
    refine ⟨howner, mem_append_left _ hrequested, ?_⟩
    rintro ⟨found, hanswer⟩
    rcases hself _ _ _ hanswer with hanswer | ⟨rfl, hid⟩
    · exact hfree ⟨found, hanswer⟩
    · -- The batch holds no other request with this index.
      have hnodup := hqueues.nodup message.workerId
      rw [hheld, if_pos rfl, map_append, map_singleton,
        singleton_append, nodup_cons] at hnodup
      apply hnodup.1
      rw [← hid]
      exact mem_map_of_mem hwaiting
  · intro other
    have hnodup := hqueues.nodup other
    rw [hheld, map_append] at hnodup
    exact hnodup.of_append_right
  · intro other requestId observation hrequested
    have hbefore := hold _ hrequested (fun _ _ _ heq => nomatch heq)
    rcases hqueues.pending other requestId observation hbefore with
      ⟨found, hdone⟩ | ⟨hactive, hpending⟩
    · exact .inl ⟨found, mem_append_left _ hdone⟩
    · rw [hheld] at hpending
      rcases mem_append.mp hpending with hfirst | hpending
      · by_cases howner : message.workerId = other
        · rw [if_pos howner] at hfirst
          cases mem_singleton.mp hfirst
          exact .inl ⟨tensors, mem_append_right _ (mem_singleton_self _)⟩
        · rw [if_neg howner] at hfirst
          cases hfirst
      · exact .inr ⟨hactive, hpending⟩
  · exact hqueues.sender
  · intro other sender result hmessage
    exact mem_append_left _ (hqueues.done other sender result hmessage)
  · exact hqueues.order
  · exact hqueues.unsent
  · intro other hlt hinactive
    obtain ⟨result, hfinished⟩ := hqueues.inactive other hlt hinactive
    exact ⟨result, mem_append_left _ hfinished⟩
  · intro other hother hsent
    apply hqueues.unread other hother
    rcases hsent with ⟨result, hfinished⟩ | hcrashed
    · exact .inl ⟨result, hold _ hfinished (fun _ _ _ heq => nomatch heq)⟩
    · exact .inr (hold _ hcrashed (fun _ _ _ heq => nomatch heq))
  · exact hqueues.bound

end Answer

end Steps

/-! ## Runs -/

structure BrokerInv (simulators : ℕ) (keys : Bool → List TensorKey)
    (row : Bool → PolicyRow A → TensorKey → V) (eval : Bool)
    (entries : BrokerLog A V) (broker : ModelBroker A V) : Prop where
  workers : SimulatorsInv entries broker
  lawful : Lawful (fun before => routingLaw before keys row eval) entries
  queues : ¬LoopRaised entries → QueuesInv simulators entries broker
  rows : ∀ outputs pairs, broker.phase = .sending outputs pairs →
    ∀ pair ∈ pairs, sliceTensors pair.2 outputs =
      modelRows keys row eval pair.1.observation
  settled : broker.phase.isOver ↔ LoopRaised entries ∨ LoopEnded entries
  ended : LoopEnded entries → broker.active = ∅

section Runs

variable {config : BrokerConfig} {model : SharedModel A V}
  {keys : Bool → List TensorKey}
  {row : Bool → PolicyRow A → TensorKey → V}
  {entries more : BrokerLog A V} {broker next : ModelBroker A V}

theorem brokerInv_start : BrokerInv config.simulators keys row config.eval
      ([] : BrokerLog A V) (ModelBroker.start config) := by
  constructor
  · constructor
    · exact nofun
    · exact nofun
    · rintro worker (⟨result, hmember⟩ | hmember)
      · cases hmember
      · cases hmember
  · exact lawful_nil
  · intro _
    constructor
    · exact nofun
    · intro worker
      exact nodup_nil
    · exact nofun
    · exact nofun
    · exact nofun
    · intro worker
      exact List.Pairwise.nil
    · exact nofun
    · intro worker hlt hinactive
      exact absurd (Finset.mem_range.mpr hlt) hinactive
    · rintro worker _ (⟨result, hmember⟩ | hmember)
      · cases hmember
      · cases hmember
    · intro worker hactive
      exact Finset.mem_range.mp hactive
  · exact nofun
  · constructor
    · exact nofun
    · rintro (⟨error, hmember⟩ | ⟨summary, hmember⟩)
      · cases hmember
      · cases hmember
  · rintro ⟨summary, hmember⟩
    cases hmember

theorem BrokerInv.answered_fresh
    (hinv : BrokerInv config.simulators keys row config.eval entries broker)
    (worker requestId : ℕ) (hanswered : IsAnswered entries worker requestId) :
    requestId < (broker.workers worker).requestIndex := by
  obtain ⟨tensors, hmember⟩ := hanswered
  obtain ⟨left, right, heq, ⟨observation, hrequested, _⟩, _⟩ :=
    hinv.lawful.of_mem hmember
  apply hinv.workers.fresh worker requestId observation
  rw [heq]
  exact mem_append_left _ hrequested

theorem lawful_append_worker
    (hlawful : Lawful (fun before => routingLaw before keys row config.eval)
      entries) (hmove : WorkerMove worker before posted more state) :
    Lawful (fun before => routingLaw before keys row config.eval)
      (entries ++ more) := by
  cases hmove with
  | asked | finished | crashed => exact hlawful.snoc trivial
  | late | quiet =>
    rw [append_nil]
    exact hlawful

theorem WorkerMove.not_over
    (hmove : WorkerMove worker before posted more state) :
    ¬LoopRaised more ∧ ¬LoopEnded more := by
  constructor
  · rintro ⟨error, hmember⟩
    cases hmove with
    | late | quiet => cases hmember
    | _ => cases mem_singleton.mp hmember
  · rintro ⟨summary, hmember⟩
    cases hmove with
    | late | quiet => cases hmember
    | _ => cases mem_singleton.mp hmember

theorem BrokerInv.afterWorker
    (hinv : BrokerInv config.simulators keys row config.eval entries broker)
    (hworker : worker < config.simulators)
    (hstep : WorkerStep worker broker more next) :
    BrokerInv config.simulators keys row config.eval (entries ++ more)
      next := by
  obtain ⟨posted, ⟨state, hmove, hworkers⟩, _, _⟩ := hstep.outbox_eq
  obtain ⟨hraised, hended⟩ := hmove.not_over
  constructor
  · exact hinv.workers.afterWorker hstep
  · exact lawful_append_worker hinv.lawful hmove
  · intro hnone
    rw [loopRaised_append, or_iff_left hraised] at hnone
    exact (hinv.queues hnone).afterWorker hinv.answered_fresh
      hinv.workers hworker hstep
  · rw [hstep.phase]
    exact hinv.rows
  · rw [hstep.phase, loopRaised_append, loopEnded_append,
      or_iff_left hraised, or_iff_left hended]
    exact hinv.settled
  · intro hend
    rw [loopEnded_append, or_iff_left hended] at hend
    rw [hstep.active]
    exact hinv.ended hend

theorem SimulatorsInv.afterBroker (hinv : SimulatorsInv entries broker)
    (hworkers : next.workers = broker.workers)
    (hmore : ∀ worker, ¬SentTerminal more worker ∧ ∀ requestId observation,
        BrokerEvent.requested worker requestId observation ∉ more) :
    SimulatorsInv (entries ++ more) next := by
  have hold : ∀ worker requestId observation,
      BrokerEvent.requested worker requestId observation ∈ entries ++ more →
        BrokerEvent.requested worker requestId observation ∈ entries := by
    intro worker requestId observation hmember
    rcases mem_append.mp hmember with hold | hnew
    · exact hold
    · exact absurd hnew ((hmore worker).2 requestId observation)
  constructor
  · intro worker requestId observation hmember
    rw [hworkers]
    exact hinv.fresh _ _ _ (hold _ _ _ hmember)
  · intro worker requestId observation other hfirst hsecond
    exact hinv.unique _ _ _ _ (hold _ _ _ hfirst) (hold _ _ _ hsecond)
  · intro worker hsent
    rw [sentTerminal_append, or_iff_left (hmore worker).1] at hsent
    rw [hworkers]
    exact hinv.settled worker hsent

theorem BrokerMove.silent
    (hmove : BrokerMove config model broker more next) (worker : ℕ) :
    ¬SentTerminal more worker ∧ ∀ requestId observation,
      BrokerEvent.requested worker requestId observation ∉ more := by
  constructor
  · rintro (⟨result, hmember⟩ | hmember)
    · cases hmove with
      | raise | answer | leave => cases mem_singleton.mp hmember
      | _ => cases hmember
    · cases hmove with
      | raise | answer | leave => cases mem_singleton.mp hmember
      | _ => cases hmember
  · intro requestId observation hmember
    cases hmove with
    | raise | answer | leave => cases mem_singleton.mp hmember
    | _ => cases hmember

theorem BrokerMove.workers_eq
    (hmove : BrokerMove config model broker more next) :
    next.workers = broker.workers := by
  cases hmove with
  | raise error next hlooping hworkers | hangUp next hphase hnext hworkers =>
    exact hworkers
  | _ => rfl

theorem rows_computed (hmodel : model.RowWise keys row)
    {messages : List (InferMessage A)} {slices : List (ℕ × ℕ)}
    (hmerge : mergeIpcObservations (messages.map InferMessage.observation) =
      .ok (merged, slices))
    (hinfer : inferSharedModelOutputsInMicrobatches model merged
      config.policyMicrobatchSize config.eval = .ok outputs) :
    slices.length = messages.length ∧
      ∀ pair ∈ messages.zip slices, sliceTensors pair.2 outputs =
        modelRows keys row config.eval pair.1.observation := by
  obtain ⟨hrows, hslices⟩ := mergeIpcObservations_eq_ok hmerge
  have houtputs := inferShared_eq_ok hmodel hinfer
  have hmap : slices.map (fun slice => sliceTensors slice outputs) =
      (messages.map InferMessage.observation).map
        (modelRows keys row config.eval) := by
    rw [hslices, houtputs]
    exact map_sliceTensors hrows
  constructor
  · have hlength := congrArg List.length hmap
    simpa using hlength
  · intro pair hpair
    obtain ⟨index, hindex⟩ := getElem?_of_mem hpair
    rw [getElem?_zip_eq_some] at hindex
    have hentry := congrArg (fun rows => rows[index]?) hmap
    simpa [hindex.1, hindex.2] using hentry

theorem BrokerInv.kept
    (hinv : BrokerInv config.simulators keys row config.eval entries broker)
    (hbatch : next.phase.batch = broker.phase.batch)
    (hworkers : next.workers = broker.workers)
    (houtbox : next.outbox = broker.outbox)
    (hactive : next.active = broker.active)
    (hrows : ∀ outputs pairs, next.phase = .sending outputs pairs →
      ∀ pair ∈ pairs, sliceTensors pair.2 outputs =
        modelRows keys row config.eval pair.1.observation)
    (hover : next.phase.isOver = broker.phase.isOver) :
    BrokerInv config.simulators keys row config.eval entries next := by
  constructor
  · have hkept : SimulatorsInv (entries ++ []) next :=
      hinv.workers.afterBroker hworkers (by simp [SentTerminal])
    rw [append_nil] at hkept
    exact hkept
  · exact hinv.lawful
  · intro hnone
    have hkept : QueuesInv config.simulators (entries ++ []) next :=
      (hinv.queues hnone).kept hbatch hworkers houtbox hactive (by simp)
    rw [append_nil] at hkept
    exact hkept
  · exact hrows
  · rw [hover]
    exact hinv.settled
  · rw [hactive]
    exact hinv.ended

theorem BrokerInv.noRaise
    (hinv : BrokerInv config.simulators keys row config.eval entries broker)
    (hlooping : broker.phase.isOver = false) :
    ¬LoopRaised entries ∧ ¬LoopEnded entries := by
  have hover := hinv.settled
  rw [hlooping, Bool.false_eq_true, false_iff, not_or] at hover
  exact hover

section

variable (hmodel : model.RowWise keys row)
  (hinv : BrokerInv config.simulators keys row config.eval entries broker)

include hmodel hinv

theorem BrokerInv.afterBroker
    (hmove : BrokerMove config model broker more next) :
    BrokerInv config.simulators keys row config.eval (entries ++ more)
      next := by
  have hsimulators := hinv.workers.afterBroker hmove.workers_eq hmove.silent
  cases hmove with
  | idle hphase hactive hidle =>
    rw [append_nil]
    exact hinv
  | collect messages ready rest after hcollects hready hall hreceived =>
    have hlooping : broker.phase.isOver = false := by
      rcases hcollects with ⟨hphase, _⟩ | hphase <;> rw [hphase] <;> rfl
    obtain ⟨hraised, hended⟩ := hinv.noRaise hlooping
    rw [append_nil] at hsimulators ⊢
    constructor
    · exact hsimulators
    · exact hinv.lawful
    · intro hnone
      exact (hinv.queues hnone).collect hcollects hall hreceived
    · exact nofun
    · constructor
      · exact nofun
      · rintro (hover | hover)
        · exact absurd hover hraised
        · exact absurd hover hended
    · intro hend
      exact absurd hend hended
  | raise error next hlooping hworkers hphase =>
    obtain ⟨_, hended⟩ := hinv.noRaise hlooping
    have hraised : LoopRaised (entries ++ [BrokerEvent.raised error]) :=
      ⟨error, mem_append_right _ (mem_singleton_self _)⟩
    constructor
    · exact hsimulators
    · exact hinv.lawful.snoc trivial
    · intro hnone
      exact absurd hraised hnone
    · intro outputs pairs hsending
      rw [hsending] at hphase
      cases hphase
    · constructor
      · intro _
        exact .inl hraised
      · intro _
        exact hphase
    · rintro ⟨summary, hmember⟩
      rcases mem_append.mp hmember with hold | hnew
      · exact absurd ⟨summary, hold⟩ hended
      · cases mem_singleton.mp hnew
  | empty hphase =>
    rw [append_nil]
    apply hinv.kept
    · rw [hphase]
      rfl
    · rfl
    · rfl
    · rfl
    · exact nofun
    · rw [hphase]
      rfl
  | computed messages merged slices outputs hphase hmerge hinfer =>
    obtain ⟨hlength, hrows⟩ := rows_computed hmodel hmerge hinfer
    rw [append_nil]
    apply hinv.kept
    · rw [hphase]
      exact map_fst_zip hlength.ge
    · rfl
    · rfl
    · rfl
    · intro others pairs hsending pair hpair
      cases hsending
      exact hrows pair hpair
    · rw [hphase]
      rfl
  | answer outputs message slice pairs inbox hphase =>
    have hlooping : broker.phase.isOver = false := by
      rw [hphase]
      rfl
    obtain ⟨hraised, hended⟩ := hinv.noRaise hlooping
    have hqueues := hinv.queues hraised
    have hrows := hinv.rows outputs _ hphase
    have hsent : message ∈ broker.held message.workerId := by
      rw [held_answer broker.inbox hphase, if_pos rfl]
      exact mem_append_left _ (mem_singleton_self _)
    obtain ⟨_, hrequested, hfree⟩ :=
      hqueues.held message.workerId message hsent
    have hmore : ¬LoopRaised (entries ++ [BrokerEvent.answered
        message.workerId message.requestId (sliceTensors slice outputs)]) := by
      rw [loopRaised_append, or_iff_right hraised]
      rintro ⟨error, hmember⟩
      cases mem_singleton.mp hmember
    have hmoreEnd : ¬LoopEnded (entries ++ [BrokerEvent.answered
        message.workerId message.requestId (sliceTensors slice outputs)]) := by
      rw [loopEnded_append, or_iff_right hended]
      rintro ⟨summary, hmember⟩
      cases mem_singleton.mp hmember
    constructor
    · exact hsimulators
    · apply hinv.lawful.snoc
      have hself := hrows (message, slice) mem_cons_self
      exact ⟨⟨message.observation, hrequested, hself⟩, hfree⟩
    · intro _
      exact hqueues.answer hphase
    · intro others rest hsending pair hpair
      cases hsending
      exact hrows pair (mem_cons_of_mem _ hpair)
    · constructor
      · exact nofun
      · rintro (hover | hover)
        · exact absurd hover hmore
        · exact absurd hover hmoreEnd
    · intro hend
      exact absurd hend hmoreEnd
  | sent outputs hphase =>
    rw [append_nil]
    apply hinv.kept
    · rw [hphase]
      rfl
    · rfl
    · rfl
    · rfl
    · exact nofun
    · rw [hphase]
      rfl
  | leave hphase hactive =>
    have hlooping : broker.phase.isOver = false := by
      rw [hphase]
      rfl
    obtain ⟨hraised, _⟩ := hinv.noRaise hlooping
    have hended : LoopEnded (entries ++
        [BrokerEvent.ended (broker.summary config)]) :=
      ⟨_, mem_append_right _ (mem_singleton_self _)⟩
    constructor
    · exact hsimulators
    · exact hinv.lawful.snoc trivial
    · intro _
      apply (hinv.queues hraised).kept
      · rw [hphase]
        rfl
      · rfl
      · rfl
      · rfl
      · intro entry hentry
        exact ⟨_, mem_singleton.mp hentry⟩
    · exact nofun
    · constructor
      · intro _
        exact .inr hended
      · intro _
        rfl
    · intro _
      exact hactive
  | hangUp next hphase hnext hworkers houtbox hactive =>
    have hbatch : ∀ phase : BrokerPhase A V, phase.isOver →
        phase.batch = [] := by
      intro phase hover
      cases phase with
      | stopping error connections | stopped error => rfl
      | _ => cases hover
    rw [append_nil]
    apply hinv.kept
    · rw [hbatch _ hnext, hbatch _ hphase]
    · exact hworkers
    · exact houtbox
    · exact hactive
    · intro outputs pairs hsending
      rw [hsending] at hnext
      cases hnext
    · rw [hnext, hphase]

theorem BrokerInv.step
    (hstep : (brokerMachine config model).step broker label =
      some (more, next)) :
    BrokerInv config.simulators keys row config.eval (entries ++ more)
      next := by
  cases MachineMove.of_step hstep with
  | worker worker hworker step => exact hinv.afterWorker hworker step
  | broker move => exact hinv.afterBroker hmodel move

end

theorem brokerInv_of_run (hmodel : model.RowWise keys row)
    (hrun : Run (brokerMachine config model) (ModelBroker.start config)
      events final) :
    BrokerInv config.simulators keys row config.eval (log events) final := by
  apply hrun.log_invariant (fun _ _ => True)
  · intro entries state label output next hinv _ hstep
    exact hinv.step hmodel hstep
  · intro event _
    trivial
  · exact brokerInv_start

end Runs

end VerlVla
