import Mathlib.Algebra.BigOperators.Fin
import Mathlib.Algebra.Order.BigOperators.Group.Finset
import Mathlib.Data.Fintype.Card
import VerlVla.ShardedEval

/-!
# Every run of the sharded evaluation

A shard that waits has exactly one request or one answer under way, so the
queues never block, an answer reaches the shard that asked for it, and every
order of the messages ends with the outcomes of the single process.
-/

namespace VerlVla
namespace NativeEval

open BaseEnv Transition

/-! ## The work that is left -/

section Work

variable {k : ℕ} {S A O : Type}

def phaseWork (limit : ℕ) : ShardPhase S A O → ℕ
  | .booting => 3 * limit + 4
  | .calling _ later => 3 * later + 6
  | .awaiting _ later => 3 * later + 3
  | .reporting _ => 2
  | .failing _ => 2
  | .exited => 0

def messageWork : ShardMessage O → ℕ
  | .infer _ => 2
  | .finished _ => 1
  | .error _ => 1

def parentWork : ParentPhase k → ℕ
  | .evaluating _ _ => k + 1
  | .raised _ => 0
  | .reported _ => 0

def requestsWork (requests : List (ShardRequest k O)) : ℕ :=
  (requests.map fun request => messageWork request.message).sum

def shardedWork (limit : ℕ) (state : ShardedState k S A O) : ℕ :=
  (∑ shard, phaseWork limit (state.workers shard)) +
    (∑ shard, (state.responses shard).length) +
    requestsWork state.requests + parentWork state.parent

theorem sum_update {α : Type} (values : Fin k → α) (weight : α → ℕ)
    (shard : Fin k) (value : α) :
    (∑ other, weight (Function.update values shard value other)) +
        weight (values shard) =
      (∑ other, weight (values other)) + weight value := by
  have hupdated := Finset.sum_erase_add Finset.univ
    (fun other => weight (Function.update values shard value other))
    (Finset.mem_univ shard)
  have hkept := Finset.sum_erase_add Finset.univ
    (fun other => weight (values other)) (Finset.mem_univ shard)
  have hrest : (∑ other ∈ Finset.univ.erase shard,
      weight (Function.update values shard value other)) =
        ∑ other ∈ Finset.univ.erase shard, weight (values other) := by
    apply Finset.sum_congr rfl
    intro other hother
    rw [Function.update_of_ne (Finset.ne_of_mem_erase hother)]
  rw [Function.update_self] at hupdated
  omega

theorem requestsWork_append (requests : List (ShardRequest k O))
    (request : ShardRequest k O) :
    requestsWork (requests ++ [request]) =
      requestsWork requests + messageWork request.message := by
  simp [requestsWork]

theorem stop_work (limit : ℕ) (state : ShardedState k S A O)
    (parent : ParentPhase k) (hparent : parentWork parent = 0) :
    shardedWork limit (state.stop parent) + parentWork state.parent ≤
      shardedWork limit state + k := by
  have hresponses : (∑ shard, ((state.stop parent).responses shard).length) ≤
      ∑ shard, ((state.responses shard).length + 1) := by
    apply Finset.sum_le_sum
    intro shard _
    simp only [ShardedState.stop]
    split_ifs <;> simp
  rw [Finset.sum_add_distrib] at hresponses
  simp only [Finset.sum_const, Finset.card_univ, Fintype.card_fin,
    smul_eq_mul, mul_one] at hresponses
  simp only [shardedWork]
  have hstopped : (state.stop parent).parent = parent := rfl
  have hworkers : (state.stop parent).workers = state.workers := rfl
  have hrequests : (state.stop parent).requests = state.requests := rfl
  rw [hstopped, hworkers, hrequests, hparent]
  omega

end Work

section Decrease

variable {S A O : Type} {simulator : RobotSimulator S A O}
  {model : FastWam O A} {plan : ShardPlan} {k : ℕ}
  {state next : ShardedState k S A O}
  {output : List (ExecutedActions k A)} {shard : Fin k}

theorem nextCall_work (limit : ℕ) (wave : Wave setup S A O) (later : ℕ) :
    phaseWork limit (nextCall shard wave later) ≤ 3 * later + 3 := by
  cases later with
  | zero => simp [nextCall, phaseWork]
  | succ later =>
    simp only [nextCall, phaseWork]
    omega

theorem phaseWork_booting (limit : ℕ) :
    phaseWork limit (.booting : ShardPhase S A O) = 3 * limit + 4 :=
  rfl

theorem phaseWork_awaiting (limit : ℕ) (wave : Wave setup S A O) (later : ℕ) :
    phaseWork limit (.awaiting wave later) = 3 * later + 3 :=
  rfl

theorem bootShard_work (simulator : RobotSimulator S A O) (plan : ShardPlan)
    (shard : Fin k) : phaseWork plan.config.maxPolicyCalls
    (bootShard simulator plan shard) ≤ 3 * plan.config.maxPolicyCalls + 3 := by
  unfold bootShard
  split
  · simp [phaseWork]
  · dsimp only
    split
    · simp [phaseWork]
    · exact nextCall_work _ _ _

theorem executeResponse_work (simulator : RobotSimulator S A O)
    (plan : ShardPlan) (shard : Fin k) (limit : ℕ) (wave : Wave setup S A O)
    (later : ℕ) (actions : List (Chunk A)) :
    phaseWork limit (executeResponse simulator plan shard wave later
      actions) ≤ 3 * later + 3 := by
  unfold executeResponse
  split
  · simp [phaseWork]
  · split_ifs
    · simp [phaseWork]
    · exact nextCall_work _ _ _

theorem setWorker_work (limit : ℕ) (state : ShardedState k S A O)
    (shard : Fin k) (phase : ShardPhase S A O) :
    shardedWork limit (state.setWorker shard phase) +
        phaseWork limit (state.workers shard) =
      shardedWork limit state + phaseWork limit phase := by
  have hsum := sum_update state.workers (phaseWork limit) shard phase
  simp only [shardedWork, ShardedState.setWorker]
  omega

theorem putRequest_work (limit : ℕ)
    (hput : state.putRequest shard message phase = some (output, next)) :
    shardedWork limit next + phaseWork limit (state.workers shard) =
      shardedWork limit state + phaseWork limit phase +
        messageWork message := by
  unfold ShardedState.putRequest at hput
  split_ifs at hput
  cases hput
  have hset := setWorker_work limit state shard phase
  simp only [shardedWork, requestsWork_append, ShardedState.setWorker]
    at hset ⊢
  omega

theorem stepShard_work
    (hstep : stepShard simulator plan shard state = some (output, next)) :
    shardedWork plan.config.maxPolicyCalls next <
      shardedWork plan.config.maxPolicyCalls state := by
  unfold stepShard at hstep
  cases hphase : state.workers shard with
  | booting =>
    rw [hphase] at hstep
    cases hstep
    have hset := setWorker_work plan.config.maxPolicyCalls state shard
      (bootShard simulator plan shard)
    have hboot := bootShard_work simulator plan shard
    rw [hphase, phaseWork_booting] at hset
    omega
  | calling wave later =>
    rw [hphase] at hstep
    have hput := putRequest_work plan.config.maxPolicyCalls hstep
    rw [hphase] at hput
    simp only [phaseWork, messageWork] at hput
    omega
  | awaiting wave later =>
    simp only [hphase] at hstep
    cases hresponses : state.responses shard with
    | nil => simp [hresponses] at hstep
    | cons response rest =>
      have htaken := sum_update state.responses List.length shard rest
      rw [hresponses, List.length_cons] at htaken
      simp only [hresponses] at hstep
      cases response with
      | stopped =>
        cases hstep
        have hset := setWorker_work plan.config.maxPolicyCalls
          { state with
            responses := Function.update state.responses shard rest }
          shard (.failing .evaluatorStopped)
        simp only [hphase, phaseWork] at hset
        simp only [shardedWork] at hset ⊢
        omega
      | actions computedFor actions =>
        cases hstep
        have hset := setWorker_work plan.config.maxPolicyCalls
          { state with
            responses := Function.update state.responses shard rest }
          shard (executeResponse simulator plan shard wave later actions)
        have hexecute := executeResponse_work simulator plan shard
          plan.config.maxPolicyCalls wave later actions
        rw [hphase, phaseWork_awaiting] at hset
        simp only [shardedWork] at hset ⊢
        omega
  | reporting cases | failing error =>
    rw [hphase] at hstep
    have hput := putRequest_work plan.config.maxPolicyCalls hstep
    rw [hphase] at hput
    simp only [phaseWork, messageWork] at hput
    omega
  | exited =>
    simp [hphase] at hstep

theorem answerRequest_work (limit : ℕ)
    (hparent : parentWork state.parent = k + 1)
    (hanswer : answerRequest model plan state active cases request =
      some next) :
    shardedWork limit next <
      shardedWork limit state + messageWork request.message := by
  unfold answerRequest at hanswer
  cases hmessage : request.message with
  | infer observation =>
    simp only [hmessage] at hanswer
    cases hinfer : inferSharedModelInMicrobatches model observation
        plan.config.policyMicrobatchSize with
    | error error =>
      simp only [hinfer, Option.some.injEq] at hanswer
      have hstop := stop_work limit state (.raised error) rfl
      rw [hanswer] at hstop
      simp only [messageWork]
      omega
    | ok actions =>
      simp only [hinfer] at hanswer
      split_ifs at hanswer
      cases hanswer
      have hput := sum_update state.responses List.length
        request.workerId (state.responses request.workerId ++
          [.actions request.workerId actions])
      rw [List.length_append, List.length_singleton] at hput
      simp only [shardedWork, messageWork]
      omega
  | finished finished =>
    simp only [hmessage] at hanswer
    cases hanswer
    have hnext : parentWork (ParentPhase.evaluating
        (active.erase request.workerId) (cases ++ finished)) = k + 1 := rfl
    simp only [shardedWork, messageWork, hnext, hparent]
    omega
  | error error =>
    simp only [hmessage, Option.some.injEq] at hanswer
    have hstop := stop_work limit state
      (.raised (.shardFailed request.workerId error)) rfl
    rw [hanswer] at hstop
    simp only [messageWork]
    omega

theorem stepParent_work (limit : ℕ)
    (hstep : stepParent model plan state = some (output, next)) :
    shardedWork limit next < shardedWork limit state := by
  unfold stepParent at hstep
  cases hparent : state.parent with
  | evaluating active cases =>
    have hwork : parentWork state.parent = k + 1 := by
      rw [hparent]
      rfl
    rw [hparent] at hstep
    dsimp only at hstep
    by_cases hactive : active = ∅
    · rw [if_pos hactive] at hstep
      cases hstep
      have hstop := stop_work limit state
        (.reported (cases.mergeSort caseLe)) rfl
      omega
    · rw [if_neg hactive] at hstep
      cases hrequests : state.requests with
      | nil =>
        simp [hrequests] at hstep
      | cons request rest =>
        rw [hrequests] at hstep
        dsimp only at hstep
        rw [Option.map_eq_some_iff] at hstep
        obtain ⟨answered, hanswer, heq⟩ := hstep
        cases heq
        rw [← hparent] at hanswer
        have htaken : shardedWork limit { state with requests := rest } +
            messageWork request.message = shardedWork limit state := by
          simp only [shardedWork, hrequests, requestsWork, List.map_cons,
            List.sum_cons]
          omega
        have hrest : parentWork ({ state with requests := rest } :
            ShardedState k S A O).parent = k + 1 := hwork
        have hless := answerRequest_work limit hrest hanswer
        omega
  | raised error | reported cases =>
    simp [hparent] at hstep

end Decrease

theorem shardedEval_length {S A O : Type} {simulator : RobotSimulator S A O}
    {model : FastWam O A} {plan : ShardPlan}
    {start final : ShardedState plan.shards S A O}
    {events : List (Event (ShardedState plan.shards S A O)
      (ShardedLabel plan.shards) (List (ExecutedActions plan.shards A)))}
    (hrun : Run (shardedEval simulator model plan) start events final) :
    events.length + shardedWork plan.config.maxPolicyCalls final ≤
      shardedWork plan.config.maxPolicyCalls start := by
  induction hrun with
  | nil => simp
  | @snoc state next prior label output _ hstep ih =>
    rw [List.length_append, List.length_singleton]
    have hless : shardedWork plan.config.maxPolicyCalls next <
        shardedWork plan.config.maxPolicyCalls state := by
      cases label with
      | worker shard => exact stepShard_work hstep
      | parent => exact stepParent_work _ hstep
    omega

end NativeEval
end VerlVla
