import VerlVla.EpisodeBuffer
import VerlVla.FeedbackConservation

/-!
# Rollouts without auto-reset and the episode buffer

Without auto-reset an environment that ended reports nothing until the next
reset.  The slots behind its end therefore look like the start of another
episode, and the buffer accepts a rollout only if every lane ends in its last
slot.
-/

namespace VerlVla
namespace BaseEnv

variable {n : ℕ} {A O : Type}

/-! ## Consecutive chunks -/

structure ChunkInput (n : ℕ) (A O : Type) where
  inputs : List (TickInput n A O)
  fresh : Option (Fin n → EnvObs O)
  resetObs : Fin n → EnvObs O

def executeChunks (config : EnvConfig) (env : EnvState n A O) :
    List (ChunkInput n A O) →
    Except (Raised n A O) (EnvState n A O × List (List (StepFeedback n)))
  | [] => .ok (env, [])
  | chunk :: chunks => do
    let next ← serialStep config env chunk.inputs chunk.fresh chunk.resetObs
    let rest ← executeChunks config next.1 chunks
    pure (rest.1, next.2 :: rest.2)

def laneSubsteps (e : Fin n) (slots : List (List (StepFeedback n))) :
    List (List Report) :=
  slots.map fun steps => steps.map (·.report e)

def ZeroedAfterDone : Bool → List Report → Prop
  | _, [] => True
  | done, report :: rest =>
    (done = true → report = .nothing) ∧
    ZeroedAfterDone (done || report.done) rest

theorem zeroedAfterDone_append : ZeroedAfterDone done (earlier ++ later) ↔
      ZeroedAfterDone done earlier ∧
      ZeroedAfterDone (done || earlier.any Report.done) later := by
  induction earlier generalizing done with
  | nil => simp [ZeroedAfterDone]
  | cons report earlier ih =>
    rw [List.cons_append, ZeroedAfterDone, ZeroedAfterDone, ih, and_assoc,
      List.any_cons, Bool.or_assoc]

theorem ZeroedAfterDone.nothing (hzeroed : ZeroedAfterDone true reports) :
    ∀ report ∈ reports, report = .nothing := by
  induction reports with
  | nil => simp
  | cons report reports ih =>
    rw [List.forall_mem_cons]
    exact ⟨hzeroed.1 rfl, ih hzeroed.2⟩

section Runs

variable {e : Fin n}

theorem done_of_finishes (hfinishes : FinishesTick
      (fun env tick => ∃ calls, LaneTracked e start calls env tick) next) :
    (start.done e = true → next.2.report e = .nothing) ∧
      next.1.done e = (start.done e || (next.2.report e).done) := by
  obtain ⟨_, _, _, ⟨env, ticked⟩, _, _, ⟨calls, htracked⟩, hpublish⟩ :=
    hfinishes
  have hbefore : ticked.doneBeforeStep e = start.done e := htracked.before
  have hflag : env.done e = start.done e := htracked.flag
  unfold publishStep at hpublish
  split at hpublish
  · cases hpublish
  next rows hrows =>
    cases hpublish
    constructor
    · intro hstart
      simp [StepFeedback.report, stepFeedback, hbefore, hstart, Report.nothing]
    · cases hstart : start.done e with
      | true => simp [hflag, hstart]
      | false =>
        simp [hflag, hstart, StepFeedback.report, stepFeedback, hbefore,
          Report.done, StepRow.done]

theorem zeroed_of_executeSteps
    (hsteps : executeSteps env chunkStarted inputs = .ok next) :
    ZeroedAfterDone (env.done e) (next.2.map (·.report e)) ∧ next.1.done e =
        (env.done e || (next.2.map (·.report e)).any Report.done) := by
  induction inputs generalizing env chunkStarted next with
  | nil =>
    cases hsteps
    simp [ZeroedAfterDone]
  | cons input inputs ih =>
    obtain ⟨ticked, htick, htail⟩ := bind_eq_ok.mp hsteps
    obtain ⟨rest, hrest, hpure⟩ := bind_eq_ok.mp htail
    cases hpure
    obtain ⟨hnothing, hdone⟩ := done_of_finishes
      ((laneTracked_invariant e _).stepWithTeleop_ok
        ⟨[], LaneTracked.begin env input.action chunkStarted⟩ htick)
    have hbegin : (beginTick env input.action chunkStarted).1.done e =
        env.done e := rfl
    rw [hbegin] at hnothing hdone
    obtain ⟨hzeroed, hlater⟩ := ih hrest
    rw [hdone] at hzeroed hlater
    constructor
    · exact ⟨hnothing, hzeroed⟩
    · rw [hlater, List.map_cons, List.any_cons, Bool.or_assoc]

theorem zeroed_of_serialStep (hauto : config.autoReset = false)
    (hstep : serialStep config env inputs fresh resetObs = .ok next) :
    ZeroedAfterDone (env.done e) (next.2.map (·.report e)) ∧ next.1.done e =
        (env.done e || (next.2.map (·.report e)).any Report.done) := by
  obtain ⟨executed, hsteps, htail⟩ := bind_eq_ok.mp hstep
  obtain ⟨finished, hfinish, hpure⟩ := bind_eq_ok.mp htail
  cases hpure
  obtain ⟨hzeroed, hdone⟩ := zeroed_of_executeSteps (e := e) hsteps
  refine ⟨hzeroed, ?_⟩
  rw [← hdone]
  unfold finishExecutionSlice at hfinish
  split at hfinish
  · cases hfinish
  · cases hfinish
    simp [clearFlags, resetDoneEnvs, hauto]

theorem zeroed_of_executeChunks (hauto : config.autoReset = false)
    (hchunks : executeChunks config env chunks = .ok next) :
    ZeroedAfterDone (env.done e) (laneSubsteps e next.2).flatten := by
  induction chunks generalizing env next with
  | nil =>
    cases hchunks
    trivial
  | cons chunk chunks ih =>
    obtain ⟨stepped, hstep, htail⟩ := bind_eq_ok.mp hchunks
    obtain ⟨rest, hrest, hpure⟩ := bind_eq_ok.mp htail
    cases hpure
    obtain ⟨hzeroed, hdone⟩ := zeroed_of_serialStep (e := e) hauto hstep
    have hlater := ih hrest
    rw [hdone] at hlater
    exact zeroedAfterDone_append.mpr ⟨hzeroed, hlater⟩

end Runs

end BaseEnv

open BaseEnv

variable {D : Type}

/-! ## Lanes of a rollout -/

/-- The lane's feedback is that of one environment over consecutive chunks
without auto-reset. -/
def ProducedLane (lane : Episode D) : Prop :=
  ∃ (n : ℕ) (A O : Type) (config : EnvConfig) (env : EnvState n A O)
    (chunks : List (ChunkInput n A O))
    (next : EnvState n A O × List (List (StepFeedback n))) (e : Fin n),
    config.autoReset = false ∧ env.done e = false ∧
      executeChunks config env chunks = .ok next ∧
      lane.map (·.substeps) = laneSubsteps e next.2

structure EndsOnce (lane before : Episode D) (last : RolloutStep D)
    (after : Episode D) : Prop where
  lane : lane = before ++ last :: after
  before : ∀ step ∈ before, step.done = false
  last : last.done = true
  after : ∀ step ∈ after, step.done = false ∧ step.success = false

theorem ProducedLane.endsOnce (hlane : ProducedLane lane)
    (hdone : ∃ step ∈ lane, step.done = true) :
    ∃ before last after, EndsOnce lane before last after := by
  obtain ⟨n, A, O, config, env, chunks, next, e, hauto, henv, hchunks,
    hsubsteps⟩ := hlane
  have hzeroed := zeroed_of_executeChunks (e := e) hauto hchunks
  rw [henv, ← hsubsteps] at hzeroed
  obtain ⟨last, hfind⟩ := Option.isSome_iff_exists.mp
    (List.find?_isSome.mpr hdone)
  obtain ⟨hlast, before, after, hsplit, hbefore⟩ :=
    List.find?_eq_some_iff_append.mp hfind
  refine ⟨before, last, after, hsplit, by simpa using hbefore, hlast, ?_⟩
  have hlane : (lane.map (·.substeps)).flatten =
      ((before.map (·.substeps)).flatten ++ last.substeps) ++
        (after.map (·.substeps)).flatten := by
    rw [hsplit]
    simp
  rw [hlane, zeroedAfterDone_append] at hzeroed
  have hended : ((before.map (·.substeps)).flatten ++ last.substeps).any
      Report.done = true := by
    rw [List.any_append, ← RolloutStep.done_eq_any, hlast, Bool.or_true]
  rw [hended] at hzeroed
  have hnothing := hzeroed.2.nothing
  intro step hstep
  have hsilent : ∀ report ∈ step.substeps, report = .nothing := by
    intro report hreport
    apply hnothing
    exact List.mem_flatten.mpr
      ⟨_, List.mem_map.mpr ⟨step, hstep, rfl⟩, hreport⟩
  constructor
  · rw [RolloutStep.done_eq_any, List.any_eq_false]
    intro report hreport
    rw [hsilent report hreport]
    exact Bool.false_ne_true
  · rw [RolloutStep.success, List.any_eq_false]
    intro report hreport
    rw [hsilent report hreport]
    exact Bool.false_ne_true

/-- The steps up to and including the slot of the first end. -/
def episodeOf (lane : Episode D) : Episode D :=
  lane.take (lane.findIdx (·.done) + 1)

section EndsOnce

variable {lane before after : Episode D} {last : RolloutStep D}

section

variable (hends : EndsOnce lane before last after)

include hends

theorem EndsOnce.findIdx : lane.findIdx (·.done) = before.length := by
  have hnone : before.findIdx (·.done) = before.length := by
    rw [List.findIdx_eq_length]
    exact hends.before
  rw [hends.lane, List.findIdx_append, hnone, if_neg (lt_irrefl _),
    List.findIdx_cons, hends.last]
  exact Nat.zero_add _

theorem EndsOnce.episodeOf : VerlVla.episodeOf lane = before ++ [last] := by
  rw [VerlVla.episodeOf, hends.findIdx, hends.lane]
  simp [List.take_append]

theorem EndsOnce.ingestLane : EpisodeBuffer.ingestLane [] lane =
      (after, if before = [] then [] else [VerlVla.episodeOf lane]) := by
  rw [hends.episodeOf, hends.lane]
  exact EpisodeBuffer.ingestLane_ended hends.before hends.last
    fun step hstep => (hends.after step hstep).1

theorem EndsOnce.success :
    (before ++ [last]).any (·.success) = lane.any (·.success) := by
  have hafter : after.any (·.success) = false := by
    rw [List.any_eq_false]
    intro step hstep
    rw [(hends.after step hstep).2]
    exact Bool.false_ne_true
  rw [hends.lane, List.any_append, List.any_append, List.any_cons,
    List.any_cons, hafter, List.any_nil]

end

end EndsOnce

/-! ## Ingesting a rollout -/

namespace EpisodeBuffer

/-- No lane has a step left from an earlier rollout. -/
def Clean (buffer : EpisodeBuffer D) (lanes : ℕ) : Prop :=
  buffer.lanes = none ∨ buffer.lanes = some (List.replicate lanes [])

def leftover (rollout : List (Episode D)) : List (Episode D) :=
  rollout.map fun lane => (ingestLane [] lane).1

section Clean

variable {buffer : EpisodeBuffer D} {rollout : List (Episode D)}

theorem clean_create (autoReset : Bool) (lanes : ℕ) :
    (create autoReset : EpisodeBuffer D).Clean lanes :=
  .inl rfl

theorem ingest_clean (hclean : buffer.Clean rollout.length) :
    buffer.ingest rollout =
      ({ buffer with lanes := some (leftover rollout) }, do
        require (buffer.autoReset ∨ unfinished (leftover rollout) = [])
          (.unfinishedLanes (unfinished (leftover rollout)))
        pure (rollout.map fun lane => (ingestLane [] lane).2).flatten) := by
  have hlanes : buffer.lanes.getD (rollout.map fun _ => []) =
      List.replicate rollout.length [] := by
    rcases hclean with hnone | hsome
    · rw [hnone, Option.getD_none, List.map_const']
    · rw [hsome, Option.getD_some]
  have hzip : List.zipWith ingestLane (List.replicate rollout.length [])
      rollout = rollout.map (ingestLane []) := by
    clear hclean hlanes
    induction rollout with
    | nil => rfl
    | cons lane rollout ih =>
      rw [List.length_cons, List.replicate_succ, List.zipWith_cons_cons, ih,
        List.map_cons]
  have hleft : (rollout.map (ingestLane [])).map (·.1) ++
      (List.replicate rollout.length ([] : Episode D)).drop rollout.length =
        leftover rollout := by
    rw [List.drop_eq_nil_of_le (by simp), List.append_nil, List.map_map]
    rfl
  unfold ingest
  simp only [hlanes, hzip, hleft, List.length_replicate]
  rw [require_of (le_refl _), List.map_map]
  rfl

theorem ingest_eq_ok (hauto : buffer.autoReset = false)
    (hclean : buffer.Clean rollout.length) :
    (buffer.ingest rollout).2 = .ok episodes ↔
      (∀ lane ∈ rollout, (ingestLane [] lane).1 = []) ∧
        (rollout.map fun lane => (ingestLane [] lane).2).flatten =
          episodes := by
  rw [ingest_clean hclean]
  simp only [bind_eq_ok, require_eq_ok, hauto, Bool.false_eq_true, false_or,
    unfinished_eq_nil, leftover, List.forall_mem_map]
  constructor
  · rintro ⟨_, hleft, hpure⟩
    cases hpure
    exact ⟨hleft, rfl⟩
  · rintro ⟨hleft, rfl⟩
    exact ⟨(), hleft, rfl⟩

end Clean

end EpisodeBuffer

/-! ## Agreement -/

/-- One episode for each lane, with the right success flag, and no error. -/
structure EpisodesAgree (buffer : EpisodeBuffer D)
    (rollout : List (Episode D)) : Prop where
  episodes : (buffer.ingest rollout).2 = .ok (rollout.map episodeOf)
  success : ∀ lane ∈ rollout, ∀ stepPenalty,
    ∀ transition ∈ prepareSacActorInput stepPenalty (episodeOf lane),
      transition.valids = 1 ∧
        transition.successMask = float (lane.any (·.success))

/-- A rollout without auto-reset yields each lane's episode exactly if all
lanes end in its last slot, and it has more than one. -/
theorem episodes_agree_iff {buffer : EpisodeBuffer D}
    {rollout : List (Episode D)} {slots : ℕ}
    (hauto : buffer.autoReset = false)
    (hclean : buffer.Clean rollout.length)
    (hlanes : ∀ lane ∈ rollout, ProducedLane lane)
    (hslots : ∀ lane ∈ rollout, lane.length = slots)
    (hdone : ∀ lane ∈ rollout, ∃ step ∈ lane, step.done = true) :
    EpisodesAgree buffer rollout ↔
      ∀ lane ∈ rollout, lane.findIdx (·.done) + 1 = slots ∧ 2 ≤ slots := by
  have hends : ∀ lane ∈ rollout, ∃ before last after,
      EndsOnce lane before last after :=
    fun lane hlane => (hlanes lane hlane).endsOnce (hdone lane hlane)
  constructor
  · intro hagree lane hlane
    obtain ⟨hleft, hepisodes⟩ :=
      (EpisodeBuffer.ingest_eq_ok hauto hclean).mp hagree.episodes
    have hlast : ∀ lane ∈ rollout, lane.findIdx (·.done) + 1 = slots := by
      intro lane hlane
      obtain ⟨before, last, after, hend⟩ := hends lane hlane
      have hafter := hleft lane hlane
      rw [hend.ingestLane] at hafter
      have hlength := hslots lane hlane
      rw [hend.lane, List.length_append, List.length_cons,
        show after = [] from hafter] at hlength
      rw [hend.findIdx]
      simpa using hlength
    refine ⟨hlast lane hlane, ?_⟩
    by_contra hshort
    have hnone : ∀ lane ∈ rollout,
        (EpisodeBuffer.ingestLane [] lane).2 = [] := by
      intro lane hlane
      obtain ⟨before, last, after, hend⟩ := hends lane hlane
      have hindex := hlast lane hlane
      rw [hend.findIdx] at hindex
      have hbefore : before = [] := by
        apply List.eq_nil_of_length_eq_zero
        omega
      rw [hend.ingestLane]
      exact if_pos hbefore
    have hempty : (rollout.map fun lane =>
        (EpisodeBuffer.ingestLane [] lane).2).flatten = [] := by
      rw [List.flatten_eq_nil_iff]
      intro episodes hmem
      obtain ⟨source, hsource, rfl⟩ := List.mem_map.mp hmem
      exact hnone source hsource
    rw [hempty, eq_comm, List.map_eq_nil_iff] at hepisodes
    simp [hepisodes] at hlane
  · intro hlast
    have hone : ∀ lane ∈ rollout,
        EpisodeBuffer.ingestLane [] lane = ([], [episodeOf lane]) := by
      intro lane hlane
      obtain ⟨before, last, after, hend⟩ := hends lane hlane
      obtain ⟨hindex, htwo⟩ := hlast lane hlane
      have hlength := hslots lane hlane
      rw [hend.lane, List.length_append, List.length_cons] at hlength
      rw [hend.findIdx] at hindex
      have hafter : after = [] := by
        apply List.eq_nil_of_length_eq_zero
        omega
      have hbefore : before ≠ [] := by
        rintro rfl
        rw [List.length_nil] at hindex
        omega
      rw [hend.ingestLane, if_neg hbefore, hafter]
    constructor
    case episodes =>
      rw [EpisodeBuffer.ingest_eq_ok hauto hclean]
      constructor
      · intro lane hlane
        rw [hone lane hlane]
      · have hmap : (rollout.map fun lane =>
            (EpisodeBuffer.ingestLane [] lane).2) =
              rollout.map fun lane => [episodeOf lane] :=
          List.map_congr_left fun lane hlane => by rw [hone lane hlane]
        rw [hmap, ← List.flatMap_def]
        exact List.map_eq_flatMap.symm
    case success =>
      intro lane hlane stepPenalty
      obtain ⟨before, last, after, hend⟩ := hends lane hlane
      rw [hend.episodeOf, ← hend.success]
      exact prepareSacActorInput_ended stepPenalty hend.before hend.last

/-! ## Two environments -/

def freshPair : EnvState 2 ℤ ℕ :=
  reset ⟨false⟩ .initial fullReset fun _ => sampleObs 0

/-- Chunks of one tick; the environments that end in each of them. -/
def pairChunks (ends : List (Mask 2)) : List (ChunkInput 2 ℤ ℕ) :=
  ends.map fun ended => ⟨[quietTick ended], none, fun _ => sampleObs 0⟩

def pairRollout (slots : List (List (StepFeedback 2))) : List (Episode Unit) :=
  (List.finRange 2).map fun e =>
    (laneSubsteps e slots).map fun substeps => ⟨substeps, ()⟩

theorem producedLane_pair (hsome : (executeChunks ⟨false⟩ freshPair
      (pairChunks ends)).toOption.isSome) :
    ∀ lane ∈ pairRollout ((executeChunks ⟨false⟩ freshPair
      (pairChunks ends)).toOption.get hsome).2, ProducedLane lane := by
  intro lane hlane
  obtain ⟨e, _, rfl⟩ := List.mem_map.mp hlane
  refine ⟨2, ℤ, ℕ, ⟨false⟩, freshPair, pairChunks ends, _, e, rfl, rfl,
    ok_get_toOption hsome, ?_⟩
  rw [List.map_map]
  exact List.map_id _

def unevenEnds : List (Mask 2) := [noEnvs, fun e => e.val == 0,
  fun e => e.val == 1]

def evenEnds : List (Mask 2) := [noEnvs, fun _ => true]

theorem unevenEnds_isSome : (executeChunks ⟨false⟩ freshPair
    (pairChunks unevenEnds)).toOption.isSome := by
  decide +kernel

theorem evenEnds_isSome : (executeChunks ⟨false⟩ freshPair
    (pairChunks evenEnds)).toOption.isSome := by
  decide +kernel

/-- A lane that ends before another is reported as unfinished. -/
theorem early_lane_is_unfinished : ∃ rollout : List (Episode Unit),
      (∀ lane ∈ rollout, ProducedLane lane) ∧
      (∀ lane ∈ rollout, lane.length = 3) ∧
      (∀ lane ∈ rollout, ∃ step ∈ lane, step.done = true) ∧
      ((EpisodeBuffer.create false).ingest rollout).2 =
        .error (.unfinishedLanes [0]) ∧
      ¬EpisodesAgree (EpisodeBuffer.create false) rollout := by
  have herror : ((EpisodeBuffer.create false).ingest (pairRollout
      ((executeChunks ⟨false⟩ freshPair (pairChunks unevenEnds)).toOption.get
        unevenEnds_isSome).2)).2 = .error (.unfinishedLanes [0]) := by
    decide +kernel
  refine ⟨_, producedLane_pair unevenEnds_isSome, by decide +kernel,
    by decide +kernel, herror, ?_⟩
  intro hagree
  have hok := hagree.episodes
  simp [herror] at hok

theorem episodes_agree_even : EpisodesAgree (EpisodeBuffer.create false)
    (pairRollout ((executeChunks ⟨false⟩ freshPair
      (pairChunks evenEnds)).toOption.get evenEnds_isSome).2) := by
  have hslots : ∀ lane ∈ pairRollout ((executeChunks ⟨false⟩ freshPair
      (pairChunks evenEnds)).toOption.get evenEnds_isSome).2,
        lane.length = 2 := by
    decide +kernel
  apply (episodes_agree_iff rfl (EpisodeBuffer.clean_create false _)
    (producedLane_pair evenEnds_isSome) hslots (by decide +kernel)).mpr
  decide +kernel

end VerlVla
