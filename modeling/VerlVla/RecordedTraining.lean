import VerlVla.CollectedEpisodes

/-!
# The training data of a recorded environment

The recorder holds the open episodes in memory and the completed ones on disk,
as long as no episode is completed in an evaluation.  The environment calls it
one call at a time, and an answer is the one that the calls made so far lead
to, whether the recorder runs in the background or not.
-/

namespace VerlVla

open Transition
open BaseEnv (EnvConfig Mask noEnvs)

variable {n : ℕ} {O X A D I : Type}

/-! ## The dataset recorder -/

/-- The dataset and the memory hold the completed and the open episodes. -/
structure Mirrors (collected : CollectedEpisodes n D)
    (recorder : LerobotDatasetRecorder D) : Prop where
  mode : recorder.mode = collected.mode
  pending : ∀ e : Fin n, recorder.pendingFrames e =
    (collected.frames e).map TaggedFrame.frame
  flag : recorder.hasCompletedEpisode = !collected.completed.isEmpty
  dataset : recorder.dataset = if collected.handedOver then none
    else some ⟨collected.completed.map CompletedEpisode.content, []⟩
  handed : collected.handedOver = true → collected.completed = []
  train : ∀ episode ∈ collected.completed, episode.mode = .train

namespace Mirrors

variable {collected : CollectedEpisodes n D}
  {recorder : LerobotDatasetRecorder D}

theorem create : Mirrors (.initial : CollectedEpisodes n D) .create := by
  constructor
  · rfl
  · intro e
    rfl
  · rfl
  · rfl
  · intro _
    rfl
  · exact nofun

section

variable (hmirrors : Mirrors collected recorder)

include hmirrors

theorem pending_update (envId : Fin n)
    (hframes : made = frames.map TaggedFrame.frame) (e : Fin n) :
    Function.update recorder.pendingFrames envId made e =
      (Function.update collected.frames envId frames e).map
        TaggedFrame.frame := by
  by_cases he : e = envId
  · subst he
    rw [Function.update_self, Function.update_self, hframes]
  · have hval : (e : ℕ) ≠ envId := fun heq => he (Fin.ext heq)
    rw [Function.update_of_ne hval, Function.update_of_ne he, hmirrors.pending]

theorem openDataset : recorder.openDataset.dataset =
      some ⟨collected.completed.map CompletedEpisode.content, []⟩ := by
  rw [LerobotDatasetRecorder.openDataset, hmirrors.dataset]
  cases hhanded : collected.handedOver with
  | false => rfl
  | true =>
    rw [hmirrors.handed hhanded]
    rfl

theorem recordOnce (makeFrame : RecordedStep O X A → D) (envId : Fin n)
    (step : RecordedStep O X A) :
    ∃ next, recorder.recordOnce n
        (fun step => (.ok (makeFrame step) : Except Empty D)) envId step =
          (.ok .none, next) ∧
      Mirrors (collected.record envId (makeFrame step)) next := by
  rw [LerobotDatasetRecorder.recordOnce, if_pos envId.isLt]
  refine ⟨_, rfl, ?_⟩
  constructor
  · exact hmirrors.mode
  · apply hmirrors.pending_update envId
    rw [List.map_append, ← hmirrors.pending]
    rfl
  · exact hmirrors.flag
  · exact hmirrors.openDataset
  · exact nofun
  · exact hmirrors.train

theorem saveEpisode (envId : Fin n) (hallowed : collected.frames envId ≠ [] →
      collected.mode = .train ∧ collected.handedOver = false) :
    ∃ next, (recorder.saveEpisode n envId :
        Except (RecorderError Empty) (RecorderAnswer D) × _) =
          (.ok .none, next) ∧
      Mirrors (collected.complete envId) next := by
  have hempty : recorder.pendingFrames envId = [] ↔
      collected.frames envId = [] := by
    rw [hmirrors.pending, List.map_eq_nil_iff]
  rw [LerobotDatasetRecorder.saveEpisode, if_pos envId.isLt]
  by_cases hframes : collected.frames envId = []
  · refine ⟨recorder, if_pos (hempty.mpr hframes), ?_⟩
    have hsame : (collected.complete envId).completed =
        collected.completed := if_pos hframes
    have hopen : (collected.complete envId).frames = collected.frames := by
      change Function.update collected.frames envId [] = collected.frames
      rw [← hframes, Function.update_eq_self]
    constructor
    · exact hmirrors.mode
    · rw [hopen]
      exact hmirrors.pending
    · rw [hsame]
      exact hmirrors.flag
    · rw [hsame]
      exact hmirrors.dataset
    · rw [hsame]
      exact hmirrors.handed
    · rw [hsame]
      exact hmirrors.train
  · obtain ⟨hmode, hhanded⟩ := hallowed hframes
    have hmore : (collected.complete envId).completed = collected.completed ++
          [⟨envId, collected.mode, collected.frames envId⟩] :=
      if_neg hframes
    have hdataset := hmirrors.dataset
    rw [hhanded, if_neg Bool.false_ne_true] at hdataset
    rw [if_neg (fun hnil => hframes (hempty.mp hnil)), hdataset]
    refine ⟨_, rfl, ?_⟩
    constructor
    · exact hmirrors.mode
    · exact hmirrors.pending_update envId rfl
    · rw [hmore]
      cases collected.completed <;> rfl
    · rw [hmore, show (collected.complete envId).handedOver = false
        from hhanded, if_neg Bool.false_ne_true, EpisodeDataset.addFrames,
        List.map_append, hmirrors.pending]
      rfl
    · intro hnext
      rw [show collected.handedOver = true from hnext] at hhanded
      cases hhanded
    · rw [hmore]
      intro episode hepisode
      rcases List.mem_append.mp hepisode with hepisode | hepisode
      · exact hmirrors.train episode hepisode
      · rw [List.mem_singleton.mp hepisode]
        exact hmode

theorem clearEpisode (envId : Fin n) (settled : Mask n) :
    ∃ next, (recorder.clearEpisode n envId :
        Except (RecorderError Empty) (RecorderAnswer D) × _) =
          (.ok .none, next) ∧
      Mirrors { collected with
        frames := Function.update collected.frames envId []
        settled := settled } next := by
  rw [LerobotDatasetRecorder.clearEpisode, if_pos envId.isLt]
  exact ⟨_, rfl, hmirrors.mode, hmirrors.pending_update envId rfl,
    hmirrors.flag, hmirrors.dataset, hmirrors.handed, hmirrors.train⟩

theorem setMode (makeFrame : RecordedStep O X A → D) (mode : EnvMode) :
    ∃ next, (recorder.setMode mode :
        Except (RecorderError Empty) (RecorderAnswer D) × _) =
          (.ok (.changed (mode ≠ collected.mode)), next) ∧
      Mirrors (collected.move makeFrame (.setMode mode)) next := by
  rw [LerobotDatasetRecorder.setMode, hmirrors.mode, CollectedEpisodes.move]
  by_cases hmode : mode = collected.mode
  · rw [if_pos hmode, if_pos hmode]
    exact ⟨recorder, by simp [hmode], hmirrors⟩
  · rw [if_neg hmode, if_neg hmode]
    refine ⟨{ recorder with mode := mode, pendingFrames := fun _ => [] },
      by simp [hmode], ?_⟩
    exact ⟨rfl, fun _ => rfl, hmirrors.flag, hmirrors.dataset,
      hmirrors.handed, hmirrors.train⟩

theorem trainEpisodes : collected.trainEpisodes =
      collected.completed.map CompletedEpisode.content := by
  rw [CollectedEpisodes.trainEpisodes, List.filter_eq_self.mpr]
  intro episode hepisode
  exact decide_eq_true (hmirrors.train episode hepisode)

end

end Mirrors

/-- The episodes of the dataset that is handed over, if any. -/
def RecorderAnswer.episodes : RecorderAnswer D → List (List D)
  | .completed episodes => episodes
  | _ => []

theorem Mirrors.popCompleted (hmirrors : Mirrors collected recorder)
    (makeFrame : RecordedStep O X A → D) :
    ∃ answer next, (recorder.popCompleted :
        Except (RecorderError Empty) (RecorderAnswer D) × _) =
          (.ok answer, next) ∧
      answer.episodes = collected.trainEpisodes ∧
      (∀ changed, answer ≠ .changed changed) ∧
      Mirrors (collected.move makeFrame .popCompleted) next := by
  rw [LerobotDatasetRecorder.popCompleted, hmirrors.flag,
    hmirrors.trainEpisodes]
  cases hcompleted : collected.completed with
  | nil =>
    refine ⟨.none, recorder, rfl, rfl, by simp, ?_⟩
    have hsame : collected.move makeFrame .popCompleted = collected := by
      simp only [CollectedEpisodes.move, hcompleted, List.isEmpty_nil,
        Bool.not_true, Bool.or_false]
      rw [← hcompleted]
    rw [hsame]
    exact hmirrors
  | cons episode episodes =>
    have hhanded : collected.handedOver = false := by
      by_contra htrue
      rw [Bool.not_eq_false] at htrue
      have hnil := hmirrors.handed htrue
      simp [hcompleted] at hnil
    have hdataset := hmirrors.dataset
    rw [hhanded, if_neg Bool.false_ne_true, hcompleted] at hdataset
    simp only [List.isEmpty_cons, Bool.not_false, if_true, hdataset]
    refine ⟨_, _, rfl, rfl, by simp, ?_⟩
    have hnext : (collected.move makeFrame .popCompleted).handedOver =
        true := by
      simp [CollectedEpisodes.move, hcompleted]
    constructor
    · exact hmirrors.mode
    · exact hmirrors.pending
    · rfl
    · rw [hnext]
      rfl
    · intro _
      rfl
    · intro _ hmember
      cases hmember

/-! ## The recorders together -/

def VideoFollows (recorder : MultiRecorder D I) : Prop :=
  ∀ video, recorder.video = some video → video.mode = recorder.lerobot.mode

theorem MultiRecorder.answer_false (given : RecorderAnswer D) :
    MultiRecorder.answer false given = given := by
  cases given with
  | changed changed => rw [MultiRecorder.answer, Bool.false_or]
  | _ => rfl

theorem VideoRecorder.saveEpisode_mode (video : VideoRecorder I)
    (envId : ℕ) : (video.saveEpisode envId).mode = video.mode := by
  rw [VideoRecorder.saveEpisode]
  split_ifs <;> rfl

theorem LerobotDatasetRecorder.apply_mode {F E : Type} (mk : F → Except E D)
    (recorder : LerobotDatasetRecorder D) (call : RecorderCall F)
    (hcall : ∀ mode, call ≠ .setMode mode) :
    (recorder.apply n mk call).2.mode = recorder.mode := by
  cases call with
  | setMode mode => exact absurd rfl (hcall mode)
  | recordOnce envId frame =>
    simp only [apply, recordOnce]
    split_ifs
    · cases mk frame <;> rfl
    · rfl
  | saveEpisode envId =>
    simp only [apply, saveEpisode]
    split_ifs
    · rfl
    · cases recorder.dataset <;> rfl
    · rfl
  | clearEpisode envId =>
    simp only [apply, clearEpisode]
    split_ifs <;> rfl
  | popCompleted =>
    simp only [apply, popCompleted]
    split_ifs
    · cases recorder.dataset <;> rfl
    · rfl
  | flush | finalize => rfl

theorem MultiRecorder.videoAfter_mode {F : Type} (panel : F → Option I)
    (video : VideoRecorder I) (call : RecorderCall F)
    (hcall : ∀ mode, call ≠ .setMode mode) :
    (videoAfter panel call video).1 = false ∧
      (videoAfter panel call video).2.mode = video.mode := by
  cases call with
  | setMode mode => exact absurd rfl (hcall mode)
  | saveEpisode envId => exact ⟨rfl, video.saveEpisode_mode envId⟩
  | _ => exact ⟨rfl, rfl⟩

theorem MultiRecorder.apply_of_lerobot {F E : Type} {mk : F → Except E D}
    (panel : F → Option I) (hfollows : VideoFollows recorder)
    (call : RecorderCall F)
    (happly : recorder.lerobot.apply n mk call = (.ok given, next)) :
    ∃ video, recorder.apply n mk panel call = (.ok given, ⟨next, video⟩) ∧
      VideoFollows ⟨next, video⟩ := by
  cases hvideo : recorder.video with
  | none =>
    refine ⟨none, ?_, ?_⟩
    · simp only [MultiRecorder.apply, happly, hvideo]
    · exact nofun
  | some video =>
    have hmode := hfollows video hvideo
    have hshown : answer (videoAfter panel call video).1 given = given ∧
        (videoAfter panel call video).2.mode = next.mode := by
      by_cases hcall : ∃ mode, call = .setMode mode
      · obtain ⟨mode, rfl⟩ := hcall
        simp only [LerobotDatasetRecorder.apply,
          LerobotDatasetRecorder.setMode] at happly
        simp only [videoAfter, VideoRecorder.setMode, hmode]
        by_cases hsame : mode = recorder.lerobot.mode
        · rw [if_pos hsame] at happly ⊢
          obtain ⟨hgiven, rfl⟩ := Prod.mk.inj happly
          cases hgiven
          exact ⟨rfl, hmode⟩
        · rw [if_neg hsame] at happly ⊢
          obtain ⟨hgiven, rfl⟩ := Prod.mk.inj happly
          cases hgiven
          exact ⟨rfl, rfl⟩
      · have hother : ∀ mode, call ≠ .setMode mode := fun mode heq =>
          hcall ⟨mode, heq⟩
        obtain ⟨hfalse, hkept⟩ := videoAfter_mode panel video call hother
        have hnext : (recorder.lerobot.apply n mk call).2.mode =
            recorder.lerobot.mode :=
          recorder.lerobot.apply_mode mk call hother
        rw [happly] at hnext
        rw [hfalse, answer_false, hkept, hmode]
        exact ⟨rfl, hnext.symm⟩
    refine ⟨some (videoAfter panel call video).2, ?_, ?_⟩
    · simp only [MultiRecorder.apply, happly, hvideo, hshown.1]
    · intro other hother
      rw [← Option.some.inj hother]
      exact hshown.2

theorem LerobotDatasetRecorder.changed_synchronous {F E : Type}
    {mk : F → Except E D} {recorder : LerobotDatasetRecorder D}
    {call : RecorderCall F}
    (hchanged : (recorder.apply n mk call).1 = .ok (.changed changed)) :
    call.synchronous = true := by
  cases call with
  | recordOnce envId frame =>
    simp only [apply, recordOnce] at hchanged
    split_ifs at hchanged
    cases hmade : mk frame with
    | ok made | error error =>
      simp [hmade] at hchanged
  | saveEpisode envId =>
    simp only [apply, saveEpisode] at hchanged
    split_ifs at hchanged
    · cases hchanged
    · cases hdataset : recorder.dataset with
      | none | some dataset =>
        simp [hdataset] at hchanged
  | clearEpisode envId =>
    simp only [apply, clearEpisode] at hchanged
    split_ifs at hchanged
    cases hchanged
  | _ => rfl

theorem MultiRecorder.changed_synchronous {F E : Type} {mk : F → Except E D}
    {panel : F → Option I} {recorder : MultiRecorder D I}
    {call : RecorderCall F}
    (hchanged : (recorder.apply n mk panel call).1 = .ok (.changed changed)) :
    call.synchronous = true := by
  simp only [apply] at hchanged
  cases houtcome : (recorder.lerobot.apply n mk call).1 with
  | error error =>
    simp only [houtcome] at hchanged
    cases hchanged
  | ok given =>
    have hgiven : ∃ shown, given = .changed shown := by
      cases given with
      | changed shown => exact ⟨shown, rfl⟩
      | none | completed episodes => cases hvideo : recorder.video <;>
          simp [houtcome, hvideo, answer] at hchanged
    obtain ⟨shown, rfl⟩ := hgiven
    exact LerobotDatasetRecorder.changed_synchronous houtcome

/-! ## Executing the instructions of a move -/

abbrev frameRecorder (n : ℕ) (makeFrame : RecordedStep O X A → D)
    (panel : RecordedStep O X A → Option I) :
    BaseRecorder (MultiRecorder D I) (RecordedStep O X A)
      (RecorderError Empty) (RecorderAnswer D) :=
  multiRecorder n (fun step => .ok (makeFrame step)) panel

def answeredFlags (flags : Mask n) : RecorderAnswer D → Mask n
  | .changed true => noEnvs
  | _ => flags

/-- Execute instructions on a recorder that is called directly; there is no
result if a call raises. -/
def execute {R E : Type}
    (recorder : BaseRecorder R (RecordedStep O X A) E (RecorderAnswer D)) :
    R → Mask n → List (RecordingInstr n O X A) → Option (R × Mask n)
  | state, flags, [] => some (state, flags)
  | state, flags, .episodeDone envId done :: instrs =>
    execute recorder state (Function.update flags envId done) instrs
  | state, flags, .call call :: instrs =>
    match recorder.apply call state with
    | (.error _, _) => none
    | (.ok given, next) =>
      execute recorder next (answeredFlags flags given) instrs

structure Holds (collected : CollectedEpisodes n D)
    (recorder : MultiRecorder D I) : Prop where
  mirrors : Mirrors collected recorder.lerobot
  follows : VideoFollows recorder

section Moves

variable (makeFrame : RecordedStep O X A → D)
  (panel : RecordedStep O X A → Option I)
  {collected next : CollectedEpisodes n D} {recorder : MultiRecorder D I}

theorem Holds.create (video : Bool) : Holds (.initial : CollectedEpisodes n D)
      (.create video : MultiRecorder D I) := by
  refine ⟨Mirrors.create, ?_⟩
  intro shown hshown
  cases video with
  | false => cases hshown
  | true =>
    rw [← Option.some.inj hshown]
    rfl

theorem Holds.call (hholds : Holds collected recorder)
    (call : RecorderCall (RecordedStep O X A)) {given : RecorderAnswer D}
    {after : LerobotDatasetRecorder D}
    (happly : recorder.lerobot.apply n
      (fun step => (.ok (makeFrame step) : Except Empty D)) call =
        (.ok given, after))
    (hmirrors : Mirrors next after) :
    ∃ moved, (frameRecorder n makeFrame panel).apply call recorder =
        (.ok given, moved) ∧ Holds next moved := by
  obtain ⟨video, hcall, hfollows⟩ :=
    MultiRecorder.apply_of_lerobot panel hholds.follows call happly
  exact ⟨⟨after, video⟩, hcall, hmirrors, hfollows⟩

theorem execute_move (hholds : Holds collected recorder)
    (hallowed : collected.Allows move) :
    ∃ moved, execute (frameRecorder n makeFrame panel) recorder collected.settled
        (move.instrs collected.settled) =
          some (moved, (collected.move makeFrame move).settled) ∧
      Holds (collected.move makeFrame move) moved := by
  cases move with
  | setMode mode =>
    obtain ⟨after, happly, hafter⟩ := hholds.mirrors.setMode makeFrame mode
    obtain ⟨moved, hcall, hmoved⟩ :=
      hholds.call makeFrame panel (.setMode mode) happly hafter
    refine ⟨moved, ?_, hmoved⟩
    simp only [RecordingMove.instrs, execute, hcall, CollectedEpisodes.move]
    by_cases hmode : mode = collected.mode
    · simp [hmode, answeredFlags]
    · simp [hmode, answeredFlags]
  | resetEnv envId =>
    obtain ⟨after, happly, hafter⟩ := hholds.mirrors.clearEpisode envId
      (Function.update collected.settled envId false)
    obtain ⟨moved, hcall, hmoved⟩ :=
      hholds.call makeFrame panel (.clearEpisode envId) happly hafter
    refine ⟨moved, ?_, hmoved⟩
    simp only [RecordingMove.instrs, execute, hcall]
    rfl
  | recordStep envId step =>
    by_cases hover : collected.settled envId = true
    · refine ⟨recorder, ?_, ?_⟩
      · simp [RecordingMove.instrs, CollectedEpisodes.move, hover, execute]
      · simp only [CollectedEpisodes.move, hover, if_true]
        exact hholds
    obtain ⟨after, happly, hafter⟩ :=
      hholds.mirrors.recordOnce makeFrame envId step
    obtain ⟨moved, hcall, hmoved⟩ :=
      hholds.call makeFrame panel (.recordOnce envId step) happly hafter
    by_cases hdone : step.episodeDone = true
    · rw [Bool.not_eq_true] at hover
      have htrain := hallowed hdone hover
      obtain ⟨last, hsave, hlast⟩ := hmoved.mirrors.saveEpisode envId
        (fun _ => ⟨htrain, rfl⟩)
      obtain ⟨saved, hsaved, hholds⟩ :=
        hmoved.call makeFrame panel (.saveEpisode envId) hsave hlast
      refine ⟨saved, ?_, ?_⟩
      · simp only [RecordingMove.instrs, hover, hdone, if_true, execute,
          hcall, hsaved, CollectedEpisodes.move, Bool.false_eq_true,
          if_false]
        rfl
      · simp only [CollectedEpisodes.move, hover, hdone, if_true,
          Bool.false_eq_true, if_false]
        exact hholds
    · refine ⟨moved, ?_, ?_⟩
      · simp only [RecordingMove.instrs, if_neg hover, if_neg hdone,
          execute, hcall, CollectedEpisodes.move]
        rfl
      · simp only [CollectedEpisodes.move, if_neg hover, if_neg hdone]
        exact hmoved
  | finishEnv envId =>
    by_cases hover : collected.settled envId = true
    · refine ⟨recorder, ?_, ?_⟩
      · simp [RecordingMove.instrs, CollectedEpisodes.move, hover, execute]
      · simp only [CollectedEpisodes.move, hover, if_true]
        exact hholds
    obtain ⟨after, happly, hafter⟩ := hholds.mirrors.saveEpisode envId
      (hallowed ((Bool.not_eq_true _).mp hover))
    obtain ⟨moved, hcall, hmoved⟩ :=
      hholds.call makeFrame panel (.saveEpisode envId) happly hafter
    refine ⟨moved, ?_, ?_⟩
    · simp only [RecordingMove.instrs, if_neg hover, execute, hcall,
        CollectedEpisodes.move]
      rfl
    · simp only [CollectedEpisodes.move, if_neg hover]
      exact hmoved
  | flush =>
    obtain ⟨moved, hcall, hmoved⟩ := hholds.call makeFrame panel (.flush)
        rfl hholds.mirrors
    refine ⟨moved, ?_, hmoved⟩
    simp only [RecordingMove.instrs, execute, hcall]
    rfl
  | popCompleted =>
    obtain ⟨given, after, happly, _, hgiven, hafter⟩ :=
      hholds.mirrors.popCompleted makeFrame
    obtain ⟨moved, hcall, hmoved⟩ :=
      hholds.call makeFrame panel (.popCompleted) happly hafter
    refine ⟨moved, ?_, hmoved⟩
    simp only [RecordingMove.instrs, execute, hcall]
    cases given with
    | changed changed => exact absurd rfl (hgiven changed)
    | none | completed episodes => rfl

end Moves

end VerlVla
