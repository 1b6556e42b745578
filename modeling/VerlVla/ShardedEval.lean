import Mathlib.Data.Finset.Basic
import Mathlib.Data.Fintype.Basic
import VerlVla.BlockPartition
import VerlVla.NativeWaves
import VerlVla.TransitionRun

/-!
# The sharded evaluation

Every shard of a wave runs its own simulator process and asks the process of
the model for actions.  The requests of all shards share one queue, in the
order in which they arrive; the answers come back through one queue a shard.
-/

namespace VerlVla
namespace NativeEval

open BaseEnv

structure ShardPlan where
  config : EvalConfig
  checked : checkEval config = .ok ()
  shards_two : 2 ≤ config.simulatorShards
  shards_divide : config.numEnvs % config.simulatorShards = 0
  layouts_wave : config.layoutIds.length = config.numEnvs
  seeds_wave : config.policySeeds.length = config.numEnvs

namespace ShardPlan

variable (plan : ShardPlan)

abbrev shards : ℕ := plan.config.simulatorShards

def shardSize : ℕ := plan.config.numEnvs / plan.shards

def shardLayouts (shard : ℕ) : List ℤ :=
  block plan.shardSize shard plan.config.layoutIds

def shardSeeds (shard : ℕ) : List ℤ :=
  block plan.shardSize shard plan.config.policySeeds

theorem numEnvs_pos : 0 < plan.config.numEnvs := by
  have hchecked := plan.checked
  simp only [checkEval, require_bind_eq_ok] at hchecked
  omega

theorem shards_mul_size : plan.shards * plan.shardSize = plan.config.numEnvs :=
  Nat.mul_div_cancel' (Nat.dvd_of_mod_eq_zero plan.shards_divide)

theorem shardSize_pos : 0 < plan.shardSize := by
  apply Nat.pos_of_ne_zero
  intro hzero
  have hsize := plan.shards_mul_size
  rw [hzero, Nat.mul_zero] at hsize
  exact absurd hsize.symm plan.numEnvs_pos.ne'

def shardSetup (shard : ℕ) (robodojo : RoboDojoConfig) : VectorSetup where
  topology := ⟨plan.shards, 1, plan.shardSize, plan.shardSize_pos⟩
  slot := ⟨0, shard⟩
  robodojo := robodojo

end ShardPlan

/-! ## Messages -/

inductive ShardMessage (O : Type)
  | infer (observation : List (EnvObs O))
  | finished (cases : List CaseRecord)
  | error (error : NativeError)

structure ShardRequest (k : ℕ) (O : Type) where
  workerId : Fin k
  message : ShardMessage O

/-- An entry of a response queue.  The shard whose observation the actions
answer is kept with them. -/
inductive ShardResponse (k : ℕ) (A : Type)
  | actions (computedFor : Fin k) (actions : List (Chunk A))
  | stopped

inductive ShardPhase (S A O : Type)
  | booting
  | calling {setup : VectorSetup} (wave : Wave setup S A O) (later : ℕ)
  | awaiting {setup : VectorSetup} (wave : Wave setup S A O) (later : ℕ)
  | reporting (cases : List CaseRecord)
  | failing (error : NativeError)
  | exited

inductive ParentPhase (k : ℕ)
  | evaluating (active : Finset (Fin k)) (cases : List CaseRecord)
  | raised (error : NativeError)
  | reported (cases : List CaseRecord)

structure ShardedState (k : ℕ) (S A O : Type) where
  workers : Fin k → ShardPhase S A O
  requests : List (ShardRequest k O)
  responses : Fin k → List (ShardResponse k A)
  parent : ParentPhase k

inductive ShardedLabel (k : ℕ)
  | worker (shard : Fin k)
  | parent
  deriving DecidableEq

structure ExecutedActions (k : ℕ) (A : Type) where
  shard : Fin k
  computedFor : Fin k
  actions : List (Chunk A)

def ShardedState.initial {k : ℕ} {S A O : Type} : ShardedState k S A O where
  workers _ := .booting
  requests := []
  responses _ := []
  parent := .evaluating Finset.univ []

section Machine

variable {S A O : Type} (simulator : RobotSimulator S A O)
  (model : FastWam O A) (plan : ShardPlan)

/-! ## A shard -/

section Shard

variable {k : ℕ} (shard : Fin k)

/-- The head of the loop over the policy calls. -/
def nextCall {setup : VectorSetup} (wave : Wave setup S A O) :
    ℕ → ShardPhase S A O
  | 0 => .reporting (wave.records (some shard.val))
  | later + 1 => .calling wave later

/-- A shard starts its simulator and resets it to its cases. -/
def bootShard : ShardPhase S A O :=
  match robodojoConfig plan.config (plan.shardLayouts shard)
      (plan.shardSeeds shard) with
  | .error error => .failing error
  | .ok robodojo =>
    let schedule : CaseState (plan.shardSetup shard robodojo).topology :=
      .initial robodojo
    match startWave simulator schedule .initial true with
    | .error error => .failing error
    | .ok wave => nextCall shard wave plan.config.maxPolicyCalls

def executeResponse {setup : VectorSetup} (wave : Wave setup S A O)
    (later : ℕ) (actions : List (Chunk A)) : ShardPhase S A O :=
  match wave.execute simulator plan.config.processScoreReduction actions with
  | .error error => .failing error
  | .ok next =>
    if next.loop.allDone then .reporting (next.records (some shard.val))
    else nextCall shard next later

def ShardedState.setWorker (state : ShardedState k S A O)
    (phase : ShardPhase S A O) : ShardedState k S A O :=
  { state with workers := Function.update state.workers shard phase }

/-- A put into the request queue, which has room for two entries a shard. -/
def ShardedState.putRequest (state : ShardedState k S A O)
    (message : ShardMessage O) (phase : ShardPhase S A O) :
    Option (List (ExecutedActions k A) × ShardedState k S A O) :=
  if state.requests.length < k * 2 then
    some ([], { state.setWorker shard phase with
      requests := state.requests ++ [⟨shard, message⟩] })
  else none

def stepShard (state : ShardedState k S A O) :
    Option (List (ExecutedActions k A) × ShardedState k S A O) :=
  match state.workers shard with
  | .booting => some ([], state.setWorker shard
      (bootShard simulator plan shard))
  | .calling wave later =>
    state.putRequest shard (.infer wave.env.obs)
      (.awaiting wave.countCalls later)
  | .awaiting wave later =>
    match state.responses shard with
    | [] => none
    | response :: rest =>
      let taken : ShardedState k S A O := { state with
          responses := Function.update state.responses shard rest }
      match response with
      | .stopped => some ([], taken.setWorker shard
          (.failing .evaluatorStopped))
      | .actions computedFor actions =>
        some ([⟨shard, computedFor, actions⟩], taken.setWorker shard
          (executeResponse simulator plan shard wave later actions))
  | .reporting cases => state.putRequest shard (.finished cases) .exited
  | .failing error => state.putRequest shard (.error error) .exited
  | .exited => none

end Shard

/-! ## The process of the model -/

section Parent

variable {k : ℕ}

def caseLe (left right : CaseRecord) : Bool :=
  left.identity.layoutId < right.identity.layoutId ||
    (left.identity.layoutId = right.identity.layoutId &&
      left.identity.policySeed ≤ right.identity.policySeed)

/-- The end of the evaluation, also on an error: shards that wait are told. -/
def ShardedState.stop (state : ShardedState k S A O)
    (parent : ParentPhase k) : ShardedState k S A O :=
  { state with
    responses := fun shard =>
      if (state.responses shard).length < 1 then
        state.responses shard ++ [.stopped]
      else state.responses shard
    parent := parent }

def answerRequest (state : ShardedState k S A O)
    (active : Finset (Fin k)) (cases : List CaseRecord)
    (request : ShardRequest k O) : Option (ShardedState k S A O) :=
  match request.message with
  | .infer observation =>
    match inferSharedModelInMicrobatches model observation
        plan.config.policyMicrobatchSize with
    | .error error => some (state.stop (.raised error))
    | .ok actions =>
      if (state.responses request.workerId).length < 1 then
        some { state with
          responses := Function.update state.responses request.workerId
            (state.responses request.workerId ++
              [.actions request.workerId actions]) }
      else none
  | .finished finished =>
    some { state with
      parent := .evaluating (active.erase request.workerId)
        (cases ++ finished) }
  | .error error =>
    some (state.stop (.raised (.shardFailed request.workerId error)))

def stepParent (state : ShardedState k S A O) :
    Option (List (ExecutedActions k A) × ShardedState k S A O) :=
  match state.parent with
  | .evaluating active cases =>
    if active = ∅ then
      some ([], state.stop (.reported (cases.mergeSort caseLe)))
    else
      match state.requests with
      | [] => none
      | request :: rest =>
        (answerRequest model plan { state with requests := rest } active
          cases request).map fun next => ([], next)
  | .raised _ => none
  | .reported _ => none

end Parent

def shardedEval : Transition.Machine (ShardedState plan.shards S A O)
    (ShardedLabel plan.shards) (List (ExecutedActions plan.shards A)) where
  step state
    | .worker shard => stepShard simulator plan shard state
    | .parent => stepParent model plan state

end Machine

end NativeEval
end VerlVla
