import VerlVla.ShardedEvalRuns

/-!
# The outcomes of the sharded evaluation

The shards together hold the cases of the wave, each case in one shard.  What
is under way for a shard follows from its phase, in every state of every run.
-/

namespace VerlVla
namespace NativeEval

open BaseEnv Transition

section Shards

variable {S A O : Type} (simulator : RobotSimulator S A O)
  (act : O → Option ℤ → Chunk A) (plan : ShardPlan)

theorem ShardPlan.microbatch_pos : 0 < plan.config.policyMicrobatchSize := by
  have hchecked := plan.checked
  simp only [checkEval, require_bind_eq_ok] at hchecked
  omega

def ShardPlan.shardCases (shard : ℕ) : List (ℤ × ℤ) :=
  (plan.shardLayouts shard).zip (plan.shardSeeds shard)

def shardOutcomes (shard : ℕ) : List CaseOutcome :=
  (plan.shardCases shard).map (caseOutcome simulator act
    plan.config.processScoreReduction plan.config.maxPolicyCalls)

theorem block_zip {α β : Type} (size index : ℕ) (left : List α)
    (right : List β) :
    block size index (left.zip right) =
      (block size index left).zip (block size index right) := by
  simp [block, List.zip, List.drop_zipWith, List.take_zipWith]

theorem flatMap_shardCases : (List.finRange plan.shards).flatMap (fun shard =>
      plan.shardCases shard.val) = plan.config.cases := by
  have hlength : plan.config.cases.length = plan.shards * plan.shardSize := by
    rw [EvalConfig.cases, List.length_zip, plan.layouts_wave,
      plan.seeds_wave, plan.shards_mul_size, Nat.min_self]
  have hblocks := flatten_blocks hlength
  rw [← List.map_coe_finRange_eq_range, List.map_map] at hblocks
  rw [← hblocks, List.flatMap_def]
  congr 1
  apply List.map_congr_left
  intro shard _
  rw [Function.comp_apply, EvalConfig.cases, block_zip]
  rfl

theorem flatMap_shardOutcomes :
    (List.finRange plan.shards).flatMap (fun shard =>
      shardOutcomes simulator act plan shard.val) =
        plan.config.cases.map (caseOutcome simulator act
          plan.config.processScoreReduction plan.config.maxPolicyCalls) := by
  rw [← flatMap_shardCases, List.map_flatMap]
  rfl

/-! ## A shard and its messages -/

structure ShardAt (shard : ℕ) {setup : VectorSetup} (wave : Wave setup S A O)
    (made : ℕ) : Prop where
  calls : CallsMade simulator act plan.config.processScoreReduction wave made
  identity : wave.identity = List.ofFn fun e =>
    SelectedCase.identity (wave.env.cases e)
  cases : List.ofFn (caseOf wave.env) = plan.shardCases shard

inductive ShardSound (shard : Fin plan.shards) : Bool → ShardPhase S A O →
    List (ShardMessage O) → List (ShardResponse plan.shards A) → Prop
  | booting : ShardSound shard true .booting [] []
  | calling {setup : VectorSetup} {wave : Wave setup S A O} {made later : ℕ}
      (hat : ShardAt simulator act plan shard.val wave made)
      (hcalls : made + (later + 1) = plan.config.maxPolicyCalls) :
      ShardSound shard true (.calling wave later) [] []
  | asked {setup : VectorSetup} {wave : Wave setup S A O} {made later : ℕ}
      (hat : ShardAt simulator act plan shard.val wave made)
      (hcalls : made + (later + 1) = plan.config.maxPolicyCalls) :
      ShardSound shard true (.awaiting wave.countCalls later)
        [.infer wave.env.obs] []
  | answered {setup : VectorSetup} {wave : Wave setup S A O} {made later : ℕ}
      (hat : ShardAt simulator act plan shard.val wave made)
      (hcalls : made + (later + 1) = plan.config.maxPolicyCalls) :
      ShardSound shard true (.awaiting wave.countCalls later) []
        [.actions shard (wave.env.obs.map (rowAction act))]
  | reporting {cases : List CaseRecord}
      (hcases : cases.map CaseRecord.outcome =
        shardOutcomes simulator act plan shard.val) :
      ShardSound shard true (.reporting cases) [] []
  | reported {cases : List CaseRecord}
      (hcases : cases.map CaseRecord.outcome =
        shardOutcomes simulator act plan shard.val) :
      ShardSound shard true .exited [.finished cases] []
  | collected : ShardSound shard false .exited [] []

def pending {k : ℕ} (state : ShardedState k S A O) (shard : Fin k) :
    List (ShardMessage O) :=
  (state.requests.filter fun request => request.workerId = shard).map
    ShardRequest.message

structure Evaluating (state : ShardedState plan.shards S A O)
    (active : Finset (Fin plan.shards)) (cases : List CaseRecord) : Prop where
  parent : state.parent = .evaluating active cases
  shards : ∀ shard, ShardSound simulator act plan shard
    (decide (shard ∈ active)) (state.workers shard) (pending state shard)
    (state.responses shard)
  collected : (cases.map CaseRecord.outcome).Perm
    (((List.finRange plan.shards).filter fun shard =>
      shard ∉ active).flatMap fun shard =>
        shardOutcomes simulator act plan shard.val)

structure Reported (state : ShardedState plan.shards S A O)
    (cases : List CaseRecord) : Prop where
  parent : state.parent = .reported cases
  outcomes : (cases.map CaseRecord.outcome).Perm
    ((List.finRange plan.shards).flatMap fun shard =>
      shardOutcomes simulator act plan shard.val)
  exited : ∀ shard, state.workers shard = .exited

variable {simulator act plan}

theorem ShardAt.records (hat : ShardAt simulator act plan shard wave made)
    (hmade : made = plan.config.maxPolicyCalls) (reported : Option ℕ) :
    (wave.records reported).map CaseRecord.outcome =
      shardOutcomes simulator act plan shard := by
  rw [records_outcome simulator act plan.config.processScoreReduction
    hat.calls hat.identity, hat.cases, hmade]
  rfl

theorem nextCall_sound (hat : ShardAt simulator act plan shard.val wave made)
    (hcalls : made + later = plan.config.maxPolicyCalls) :
    ShardSound simulator act plan shard true (nextCall shard wave later)
      [] [] := by
  cases later with
  | zero => exact .reporting (hat.records hcalls _)
  | succ later => exact .calling hat hcalls

def ShardPlan.LayoutsAllowed (plan : ShardPlan) : Prop :=
  plan.config.allowHeldOutEvalLayouts = true ∨
    ∀ layout ∈ plan.config.layoutIds, layout ∉ heldOutLayouts

theorem bootShard_sound (hallowed : plan.LayoutsAllowed)
    (shard : Fin plan.shards) :
    ShardSound simulator act plan shard true
      (bootShard simulator plan shard) [] [] := by
  have hlayoutsLength : (plan.shardLayouts shard).length = plan.shardSize := by
    apply length_block _ shard.isLt
    rw [plan.layouts_wave, plan.shards_mul_size]
  have hseedsLength : (plan.shardSeeds shard).length = plan.shardSize := by
    apply length_block _ shard.isLt
    rw [plan.seeds_wave, plan.shards_mul_size]
  have hne : plan.shardLayouts shard ≠ [] := by
    apply List.ne_nil_of_length_pos
    rw [hlayoutsLength]
    exact plan.shardSize_pos
  have hheld : plan.config.allowHeldOutEvalLayouts = true ∨
      ∀ layout ∈ plan.shardLayouts shard, layout ∉ heldOutLayouts := by
    rcases hallowed with hallow | hnone
    · exact .inl hallow
    · right
      intro layout hlayout
      exact hnone layout (List.mem_of_mem_drop (List.mem_of_mem_take hlayout))
  obtain ⟨robodojo, hconfig⟩ := robodojoConfig_returns hne
    (hseedsLength.trans hlayoutsLength.symm) hheld
  obtain ⟨hids, hschedule⟩ := robodojoConfig_eq_ok hconfig
  obtain ⟨wave, hstart, hcalls, henv, hidentity⟩ := startWave_callsMade
    simulator act plan.config.processScoreReduction
    (CaseState.initial robodojo : CaseState
      (plan.shardSetup shard robodojo).topology)
    (EnvState.initial : EnvState (plan.shardSetup shard robodojo).size A O)
    true rfl
  have hoffset : (plan.shardSetup shard robodojo).size ∣
      (plan.shardSetup shard robodojo).topology.localOffset
        (plan.shardSetup shard robodojo).slot := by
    apply Dvd.intro_left
    rfl
  have hruntime : (CaseState.initial robodojo : CaseState
      (plan.shardSetup shard robodojo).topology).runtimeEval = none := rfl
  have hdrawn : (plan.shardSetup shard robodojo).robodojo.layoutIds.length =
      (plan.shardSetup shard robodojo).size := by
    change robodojo.layoutIds.length = plan.shardSize
    rw [hids, hlayoutsLength]
  have hseeds : (plan.shardSetup shard
      robodojo).robodojo.evalPolicySeedSchedule.length =
        (plan.shardSetup shard robodojo).size := by
    change robodojo.evalPolicySeedSchedule.length = plan.shardSize
    rw [hschedule, hseedsLength]
  have hcases := resetEnv_cases simulator
    (EnvState.initial : EnvState (plan.shardSetup shard robodojo).size A O)
    hruntime hdrawn hseeds hoffset
  have hat : ShardAt simulator act plan shard.val wave 0 := by
    constructor
    · exact hcalls
    · exact hidentity
    · rw [henv, hcases]
      change robodojo.layoutIds.zip robodojo.evalPolicySeedSchedule = _
      rw [hids, hschedule]
      rfl
  unfold bootShard
  simp only [hconfig, hstart]
  exact nextCall_sound hat (Nat.zero_add _)

theorem executeResponse_sound
    (hat : ShardAt simulator act plan shard.val wave made)
    (hcalls : made + (later + 1) = plan.config.maxPolicyCalls) :
    ShardSound simulator act plan shard true
      (executeResponse simulator plan shard wave.countCalls later
        (wave.env.obs.map (rowAction act))) [] [] := by
  obtain ⟨next, hexecute, hnext, hcases, hidentity⟩ := hat.calls.execute
  have hnextAt : ShardAt simulator act plan shard.val next (made + 1) := by
    constructor
    · exact hnext
    · rw [hidentity, hat.identity, hcases]
    · rw [caseOf_congr hcases, hat.cases]
  unfold executeResponse
  simp only [hexecute]
  by_cases hdone : next.loop.allDone = true
  · rw [if_pos hdone]
    have hlast : ShardAt simulator act plan shard.val next
        plan.config.maxPolicyCalls := by
      constructor
      · exact hnext.of_allDone hdone (by omega)
      · exact hnextAt.identity
      · exact hnextAt.cases
    exact .reporting (hlast.records rfl _)
  · rw [if_neg hdone]
    exact nextCall_sound hnextAt (by omega)

/-! ## One step -/

section Steps

variable {model : FastWam O A} {state next : ShardedState plan.shards S A O}
  {active : Finset (Fin plan.shards)} {cases : List CaseRecord}
  {shard : Fin plan.shards}

def AnswersOwn (state : ShardedState plan.shards S A O)
    (act : O → Option ℤ → Chunk A)
    (executed : ExecutedActions plan.shards A) : Prop :=
  executed.computedFor = executed.shard ∧
    ∃ (setup : VectorSetup) (wave : Wave setup S A O) (later : ℕ),
      state.workers executed.shard = .awaiting wave later ∧
        executed.actions = wave.env.obs.map (rowAction act)

theorem pending_append {state next : ShardedState k S A O}
    {request : ShardRequest k O}
    (hrequests : next.requests = state.requests ++ [request]) (shard : Fin k) :
    pending next shard = pending state shard ++
      if request.workerId = shard then [request.message] else [] := by
  unfold pending
  rw [hrequests, List.filter_append, List.map_append]
  by_cases hworker : request.workerId = shard <;> simp [hworker]

theorem pending_cons (state next : ShardedState k S A O)
    (hrequests : state.requests = request :: next.requests) (shard : Fin k) :
    pending state shard =
      (if request.workerId = shard then [request.message] else []) ++
        pending next shard := by
  unfold pending
  rw [hrequests, List.filter_cons]
  by_cases hworker : request.workerId = shard <;> simp [hworker]

theorem Evaluating.of_shard
    (hstate : Evaluating simulator act plan state active cases)
    (shard : Fin plan.shards) (hparent : next.parent = state.parent)
    (hworkers : ∀ other, other ≠ shard →
      next.workers other = state.workers other)
    (hpending : ∀ other, other ≠ shard →
      pending next other = pending state other)
    (hresponses : ∀ other, other ≠ shard →
      next.responses other = state.responses other)
    (hshard : ShardSound simulator act plan shard (decide (shard ∈ active))
      (next.workers shard) (pending next shard) (next.responses shard)) :
    Evaluating simulator act plan next active cases := by
  constructor
  · rw [hparent]
    exact hstate.parent
  · intro other
    by_cases hother : other = shard
    · rw [hother]
      exact hshard
    · rw [hworkers other hother, hpending other hother,
        hresponses other hother]
      exact hstate.shards other
  · exact hstate.collected

theorem putRequest_eq_some {k : ℕ} {state next : ShardedState k S A O}
    {output : List (ExecutedActions k A)} {shard : Fin k}
    {message : ShardMessage O} {phase : ShardPhase S A O}
    (hput : state.putRequest shard message phase = some (output, next)) :
    output = [] ∧ next = { state.setWorker shard phase with
      requests := state.requests ++ [⟨shard, message⟩] } := by
  unfold ShardedState.putRequest at hput
  split_ifs at hput
  cases hput
  exact ⟨rfl, rfl⟩

theorem Evaluating.putRequest
    (hstate : Evaluating simulator act plan state active cases)
    (hput : state.putRequest shard message phase = some (output, next))
    (hempty : pending state shard = [])
    (hsound : ShardSound simulator act plan shard
      (decide (shard ∈ active)) phase [message] (state.responses shard)) :
    output = [] ∧ Evaluating simulator act plan next active cases := by
  obtain ⟨houtput, hnext⟩ := putRequest_eq_some hput
  have hrequests : next.requests = state.requests ++ [⟨shard, message⟩] := by
    rw [hnext]
  have hpending := pending_append hrequests
  refine ⟨houtput, ?_⟩
  apply hstate.of_shard shard
  · rw [hnext]
    rfl
  · intro other hother
    rw [hnext]
    exact Function.update_of_ne hother _ _
  · intro other hother
    rw [hpending other, if_neg fun heq => hother heq.symm, List.append_nil]
  · intro other _
    rw [hnext]
    rfl
  · rw [hpending shard, if_pos rfl, hempty, List.nil_append, hnext]
    simp only [ShardedState.setWorker, Function.update_self]
    exact hsound

theorem Evaluating.setWorker
    (hstate : Evaluating simulator act plan state active cases)
    (shard : Fin plan.shards) (phase : ShardPhase S A O)
    (responses : List (ShardResponse plan.shards A))
    (hsound : ShardSound simulator act plan shard
      (decide (shard ∈ active)) phase (pending state shard) responses) :
    Evaluating simulator act plan (({ state with
          responses := Function.update state.responses shard responses } :
        ShardedState plan.shards S A O).setWorker shard phase)
      active cases := by
  apply hstate.of_shard shard
  · rfl
  · intro other hother
    exact Function.update_of_ne hother _ _
  · intro other _
    rfl
  · intro other hother
    exact Function.update_of_ne hother _ _
  · simp only [ShardedState.setWorker, Function.update_self]
    exact hsound

theorem Evaluating.stepShard (hallowed : plan.LayoutsAllowed)
    (hstate : Evaluating simulator act plan state active cases)
    (hstep : stepShard simulator plan shard state = some (output, next)) :
    Evaluating simulator act plan next active cases ∧
      ∀ executed ∈ output, AnswersOwn state act executed := by
  have hsound := hstate.shards shard
  unfold NativeEval.stepShard at hstep
  generalize hactive : decide (shard ∈ active) = isActive at hsound
  generalize hphase : state.workers shard = phase at hsound
  generalize hpending : pending state shard = messages at hsound
  generalize hresponses : state.responses shard = responses at hsound
  rw [hphase] at hstep
  cases hsound with
  | booting =>
    cases hstep
    refine ⟨?_, by simp⟩
    have hboot := hstate.setWorker shard (bootShard simulator plan shard)
      [] (by
        rw [hactive, hpending]
        exact bootShard_sound hallowed shard)
    rw [← hresponses, Function.update_eq_self] at hboot
    exact hboot
  | calling hat hcalls =>
    obtain ⟨houtput, hnext⟩ := hstate.putRequest hstep hpending (by
      rw [hactive, hresponses]
      exact .asked hat hcalls)
    rw [houtput]
    exact ⟨hnext, by simp⟩
  | asked hat hcalls =>
    dsimp only at hstep
    simp [hresponses] at hstep
  | @answered setup wave made later hat hcalls =>
    dsimp only at hstep
    rw [hresponses] at hstep
    dsimp only at hstep
    cases hstep
    refine ⟨?_, ?_⟩
    · apply hstate.setWorker
      rw [hactive, hpending]
      exact executeResponse_sound hat hcalls
    · intro executed hexecuted
      rw [List.mem_singleton.mp hexecuted]
      exact ⟨rfl, setup, wave.countCalls, later, hphase, rfl⟩
  | reporting hcases =>
    obtain ⟨houtput, hnext⟩ := hstate.putRequest hstep hpending (by
      rw [hactive, hresponses]
      exact .reported hcases)
    rw [houtput]
    exact ⟨hnext, by simp⟩
  | reported hcases | collected => cases hstep

theorem collected_erase (hshard : shard ∈ active) {α : Type}
    (rows : Fin plan.shards → List α) :
    (((List.finRange plan.shards).filter fun other =>
        other ∉ active.erase shard).flatMap rows).Perm
      ((((List.finRange plan.shards).filter fun other =>
        other ∉ active).flatMap rows) ++ rows shard) := by
  have hnodup : ((List.finRange plan.shards).filter fun other =>
      other ∉ active).Nodup := (List.nodup_finRange _).filter _
  have hperm : ((List.finRange plan.shards).filter fun other =>
        other ∉ active.erase shard).Perm
      (((List.finRange plan.shards).filter fun other =>
        other ∉ active) ++ [shard]) := by
    rw [List.perm_ext_iff_of_nodup ((List.nodup_finRange _).filter _)
      (List.Nodup.append hnodup (List.nodup_singleton _) (by simp [hshard]))]
    intro other
    by_cases hother : other = shard <;> simp [hother]
  have hflat := hperm.flatMap_right rows
  rw [List.flatMap_append, List.flatMap_singleton] at hflat
  exact hflat

theorem Evaluating.collect
    (hstate : Evaluating simulator act plan state active cases)
    {finished : List CaseRecord}
    (hrequests : state.requests = ⟨shard, .finished finished⟩ :: next.requests)
    (hworkers : next.workers = state.workers)
    (hanswers : next.responses = state.responses)
    (hparent : next.parent =
      .evaluating (active.erase shard) (cases ++ finished)) :
    Evaluating simulator act plan next (active.erase shard)
      (cases ++ finished) := by
  have hpending := pending_cons state next hrequests
  have hsound := hstate.shards shard
  rw [hpending shard, if_pos rfl, List.singleton_append] at hsound
  generalize hactive : decide (shard ∈ active) = isActive at hsound
  generalize hphase : state.workers shard = phase at hsound
  generalize hleft : pending next shard = left at hsound
  generalize hresponses : state.responses shard = responses at hsound
  cases hsound with
  | reported hcases =>
    constructor
    · exact hparent
    · intro other
      by_cases hother : other = shard
      · rw [hother, hworkers, hphase, hleft, hanswers, hresponses]
        have hgone : decide (shard ∈ active.erase shard) = false := by simp
        rw [hgone]
        exact .collected
      · have hkept := hstate.shards other
        rw [hpending other, if_neg fun heq => hother heq.symm,
          List.nil_append] at hkept
        have hsame : decide (other ∈ active.erase shard) =
            decide (other ∈ active) := by simp [hother]
        rw [hworkers, hanswers, hsame]
        exact hkept
    · rw [List.map_append, hcases]
      have hperm := collected_erase (of_decide_eq_true hactive)
        fun shard : Fin plan.shards =>
          shardOutcomes simulator act plan shard.val
      exact (hstate.collected.append_right _).trans hperm.symm

theorem Evaluating.answer (hmodel : RowWise model act)
    (hstate : Evaluating simulator act plan state active cases)
    (hrequests : state.requests =
      ⟨shard, .infer observation⟩ :: taken.requests)
    (hworkers : taken.workers = state.workers)
    (hanswers : taken.responses = state.responses)
    (hparent : taken.parent = state.parent)
    (hanswer : answerRequest model plan taken active cases
      ⟨shard, .infer observation⟩ = some next) :
    Evaluating simulator act plan next active cases := by
  have hpending := pending_cons state taken hrequests
  have hsound := hstate.shards shard
  rw [hpending shard, if_pos rfl, List.singleton_append] at hsound
  generalize hactive : decide (shard ∈ active) = isActive at hsound
  generalize hphase : state.workers shard = phase at hsound
  generalize hleft : pending taken shard = left at hsound
  generalize hresponses : state.responses shard = responses at hsound
  cases hsound with
  | asked hat hcalls =>
    have hinfer := inferShared_rowWise hmodel hat.calls.between.seeded
      hat.calls.between.obs_ne_nil plan.microbatch_pos
    unfold answerRequest at hanswer
    simp only [hinfer, hanswers, hresponses, List.length_nil, Nat.one_pos,
      if_true, List.nil_append, Option.some.injEq] at hanswer
    apply hstate.of_shard shard
    · rw [← hanswer]
      exact hparent
    · intro other _
      rw [← hanswer]
      exact congrFun hworkers other
    · intro other hother
      rw [hpending other, if_neg fun heq => hother heq.symm, ← hanswer]
      rfl
    · intro other hother
      rw [← hanswer]
      simp only [Function.update_of_ne hother]
    · have hgone : pending next shard = [] := by
        rw [← hleft, ← hanswer]
        rfl
      rw [hactive, hgone, ← hanswer]
      simp only [Function.update_self, hworkers, hphase]
      exact .answered hat hcalls

theorem Evaluating.report
    (hstate : Evaluating simulator act plan state ∅ cases) :
    Reported simulator act plan
      (state.stop (.reported (cases.mergeSort caseLe)))
      (cases.mergeSort caseLe) := by
  constructor
  · rfl
  · have hcollected := hstate.collected
    simp only [Finset.notMem_empty, not_false_eq_true, decide_true,
      List.filter_true] at hcollected
    exact ((List.mergeSort_perm cases caseLe).map _).trans hcollected
  · intro shard
    have hsound := hstate.shards shard
    generalize hactive : decide (shard ∈ (∅ : Finset _)) = isActive at hsound
    generalize hphase : state.workers shard = phase at hsound
    generalize pending state shard = left at hsound
    generalize state.responses shard = responses at hsound
    simp only [Finset.notMem_empty, decide_false] at hactive
    subst hactive
    cases hsound with
    | collected => exact hphase

theorem Evaluating.stepParent (hmodel : RowWise model act)
    (hstate : Evaluating simulator act plan state active cases)
    (hstep : stepParent model plan state = some (output, next)) :
    output = [] ∧
      ((∃ active cases, Evaluating simulator act plan next active cases) ∨
        ∃ cases, Reported simulator act plan next cases) := by
  unfold NativeEval.stepParent at hstep
  rw [hstate.parent] at hstep
  dsimp only at hstep
  by_cases hactive : active = ∅
  · rw [if_pos hactive] at hstep
    cases hstep
    subst hactive
    exact ⟨rfl, .inr ⟨_, hstate.report⟩⟩
  · rw [if_neg hactive] at hstep
    cases hrequests : state.requests with
    | nil =>
      simp [hrequests] at hstep
    | cons request rest =>
      obtain ⟨shard, message⟩ := request
      rw [hrequests] at hstep
      dsimp only at hstep
      rw [Option.map_eq_some_iff] at hstep
      obtain ⟨answered, hanswer, heq⟩ := hstep
      cases heq
      refine ⟨rfl, .inl ?_⟩
      cases message with
      | infer observation =>
        rw [← hstate.parent] at hanswer
        have htaken : state.requests = ⟨shard, .infer observation⟩ ::
            ({ state with requests := rest } :
              ShardedState plan.shards S A O).requests := hrequests
        exact ⟨active, cases, hstate.answer hmodel htaken rfl rfl rfl hanswer⟩
      | finished finished =>
        cases hanswer
        exact ⟨_, _, hstate.collect hrequests rfl rfl rfl⟩
      | error error =>
        have hsound := hstate.shards shard
        rw [pending_cons state
          { state with requests := rest } hrequests shard, if_pos rfl,
          List.singleton_append] at hsound
        generalize decide (shard ∈ active) = isActive at hsound
        generalize state.workers shard = phase at hsound
        generalize state.responses shard = responses at hsound
        generalize pending _ shard = left at hsound
        cases hsound

theorem putRequest_isSome {state : ShardedState k S A O} (shard : Fin k)
    (hrequests : state.requests = []) (message : ShardMessage O)
    (phase : ShardPhase S A O) :
    (state.putRequest shard message phase).isSome := by
  have hroom : state.requests.length < k * 2 := by
    have hk := shard.isLt
    rw [hrequests, List.length_nil]
    omega
  unfold ShardedState.putRequest
  rw [if_pos hroom]
  rfl

theorem Evaluating.progress (hmodel : RowWise model act)
    (hstate : Evaluating simulator act plan state active cases) :
    ∃ label, ((shardedEval simulator model plan).step state label).isSome := by
  by_cases hactive : active = ∅
  · refine ⟨.parent, ?_⟩
    simp [shardedEval, NativeEval.stepParent, hstate.parent, hactive]
  · cases hrequests : state.requests with
    | cons request rest =>
      refine ⟨.parent, ?_⟩
      obtain ⟨shard, message⟩ := request
      have hsound := hstate.shards shard
      rw [pending_cons state { state with requests := rest } hrequests
        shard, if_pos rfl, List.singleton_append] at hsound
      generalize decide (shard ∈ active) = isActive at hsound
      generalize state.workers shard = phase at hsound
      generalize hresponses : state.responses shard = responses at hsound
      generalize pending _ shard = left at hsound
      simp only [shardedEval, NativeEval.stepParent, hstate.parent,
        if_neg hactive, hrequests, Option.isSome_map]
      cases hsound with
      | asked hat hcalls =>
        have hinfer := inferShared_rowWise hmodel
          hat.calls.between.seeded hat.calls.between.obs_ne_nil
          plan.microbatch_pos
        simp [answerRequest, hinfer, hresponses]
      | reported hcases => rfl
    | nil =>
      obtain ⟨shard, hshard⟩ := Finset.nonempty_iff_ne_empty.mpr hactive
      refine ⟨.worker shard, ?_⟩
      have hempty : pending state shard = [] := by
        simp [pending, hrequests]
      have hsound := hstate.shards shard
      rw [hempty, decide_eq_true hshard] at hsound
      generalize hphase : state.workers shard = phase at hsound
      generalize hresponses : state.responses shard = responses at hsound
      simp only [shardedEval, NativeEval.stepShard, hphase]
      cases hsound with
      | booting => rfl
      | calling hat hcalls => exact putRequest_isSome shard hrequests _ _
      | answered hat hcalls =>
        dsimp only
        rw [hresponses]
        rfl
      | reporting hcases => exact putRequest_isSome shard hrequests _ _

theorem evaluating_initial :
    Evaluating simulator act plan .initial Finset.univ [] := by
  constructor
  · rfl
  · intro shard
    have hactive : decide (shard ∈ Finset.univ) = true := by simp
    rw [hactive]
    exact .booting
  · simp

end Steps

/-! ## Whole runs -/

section Runs

def ShardedInv (simulator : RobotSimulator S A O)
    (act : O → Option ℤ → Chunk A) (plan : ShardPlan)
    (state : ShardedState plan.shards S A O) : Prop :=
  (∃ active cases, Evaluating simulator act plan state active cases) ∨
    ∃ cases, Reported simulator act plan state cases

theorem ShardedInv.step (hmodel : RowWise model act)
    (hallowed : plan.LayoutsAllowed)
    (hstate : ShardedInv simulator act plan state)
    (hstep : (shardedEval simulator model plan).step state label =
      some (output, next)) :
    ShardedInv simulator act plan next ∧
      ∀ executed ∈ output, AnswersOwn state act executed := by
  rcases hstate with ⟨active, cases, hstate⟩ | ⟨cases, hstate⟩
  · cases label with
    | worker shard =>
      obtain ⟨hnext, hanswers⟩ := hstate.stepShard hallowed hstep
      exact ⟨.inl ⟨active, cases, hnext⟩, hanswers⟩
    | parent =>
      obtain ⟨houtput, hnext⟩ := hstate.stepParent hmodel hstep
      rw [houtput]
      exact ⟨hnext, by simp⟩
  · cases label with
    | worker shard =>
      simp [shardedEval, NativeEval.stepShard, hstate.exited shard] at hstep
    | parent =>
      simp [shardedEval, NativeEval.stepParent, hstate.parent] at hstep

theorem shardedInv_of_run (hmodel : RowWise model act)
    (hallowed : plan.LayoutsAllowed)
    (hrun : Run (shardedEval simulator model plan) .initial events state) :
    ShardedInv simulator act plan state :=
  hrun.invariant _ (fun _ _ _ _ hstate hstep =>
    (ShardedInv.step hmodel hallowed hstate hstep).1)
    (.inl ⟨_, _, evaluating_initial⟩)

theorem answersOwn_of_run (hmodel : RowWise model act)
    (hallowed : plan.LayoutsAllowed)
    (hrun : Run (shardedEval simulator model plan) .initial events state)
    (hevent : event ∈ events) {executed : ExecutedActions plan.shards A}
    (hexecuted : executed ∈ event.output) :
    AnswersOwn event.before act executed := by
  obtain ⟨left, right, rfl⟩ := List.append_of_mem hevent
  obtain ⟨hleft, hstep, _⟩ := hrun.at_event
  exact (ShardedInv.step hmodel hallowed
    (shardedInv_of_run hmodel hallowed hleft) hstep).2 executed hexecuted

end Runs

end Shards

end NativeEval
end VerlVla
