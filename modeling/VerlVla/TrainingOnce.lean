import VerlVla.CheckpointResume
import VerlVla.TrainingTransaction

/-!
# One update for a window

Where all trainers spell the receipt the same way they share one lock, so one
of them at a time works on the window.  What it has done so far agrees with the
files, and every entry it writes is lawful.
-/

namespace VerlVla

open Transition

namespace TrainingWindow

variable {P : Type} (window : TrainingWindow P)

structure Collected (files : TrainingFiles P) (thetaOld : P) : Prop where
  native : window.collectedPath = none → thetaOld = window.native
  checkpoint : ∀ path, window.collectedPath = some path →
    files.disk (window.config.resolvedPath path) = .complete thetaOld
  distinct : ∀ path, window.collectedPath = some path →
    window.config.resolvedPath path ≠ window.newDir

def IsUpdate (thetaOld policy : P) : Prop :=
  ∃ process, policy = window.update process thetaOld

def published (entry : TrainingEntry P) : Bool := match entry with
  | .published _ _ => true
  | .updated _ _ => false

/-- Nothing is updated or published after a receipt, and every update starts
from the policy that collected the window. -/
def TrainingLaw (thetaOld : P) (earlier : List (TrainingEntry P))
    (entry : TrainingEntry P) : Prop :=
  (∀ other ∈ earlier, published other = false) ∧ match entry with
    | .updated _ policy => policy = thetaOld
    | .published _ receipt => receipt = window.receipt

def WorkDone (thetaOld : P) (files : TrainingFiles P) : FitWork P → Prop
  | .opened => True
  | .starting => files.receipt = none
  | .loaded policy => files.receipt = none ∧ policy = thetaOld
  | .trained policy | .saving policy =>
    files.receipt = none ∧ window.IsUpdate thetaOld policy
  | .actorSaved policy | .marking policy | .saved policy
  | .publishing policy =>
    files.receipt = none ∧ window.IsUpdate thetaOld policy ∧
      files.disk window.newDir = .complete policy
  | .published receipt => files.receipt = some receipt

structure FilesDone (thetaOld : P) (entries : List (TrainingEntry P))
    (files : TrainingFiles P) : Prop where
  collected : window.Collected files thetaOld
  lawful : Lawful (window.TrainingLaw thetaOld) entries
  unpublished : files.receipt = none →
    ∀ entry ∈ entries, published entry = false
  receipt : ∀ receipt, files.receipt = some receipt →
    receipt = window.receipt ∧ ∃ policy, window.IsUpdate thetaOld policy ∧
      files.disk window.newDir = .complete policy

/-- One trainer at a time, whose work agrees with the files. -/
structure OneTrainer (argument : ReceiptArgument) (thetaOld : P)
    (entries : List (TrainingEntry P)) (state : TrainingState P) :
    Prop where
  files : window.FilesDone thetaOld entries state.files
  waiting : ∀ process other, state.phases process = .waiting other →
    other = argument
  holding : ∀ process other work, state.phases process = .holding other work →
    other = argument ∧ state.locks argument.lockName = some process ∧
      window.WorkDone thetaOld state.files work
  locked : ∀ process, state.locks argument.lockName = some process →
    ∃ work, state.phases process = .holding argument work

variable {window} {thetaOld : P} {entries : List (TrainingEntry P)}
  {files : TrainingFiles P}

theorem Collected.of_newDir (hcollected : window.Collected files thetaOld)
    (hdisk : ∀ directory, directory ≠ window.newDir →
      next.disk directory = files.disk directory) :
    window.Collected next thetaOld := by
  constructor
  · exact hcollected.native
  · intro path hpath
    rw [hdisk _ (hcollected.distinct path hpath)]
    exact hcollected.checkpoint path hpath
  · exact hcollected.distinct

theorem resolvedPath_idem (config : CheckpointConfig)
    (habsolute : config.workingDir.isAbsolute = true) (path : List Char) :
    config.resolvedPath (config.resolvedPath path) =
      config.resolvedPath path := by
  by_cases hpath : (PosixPath.parse path).isAbsolute = true
  · have hsame : config.resolvedPath path = path := if_pos hpath
    rw [hsame, hsame]
  · obtain ⟨rest, hrest⟩ := PosixPath.text_of_isAbsolute
      (PosixPath.isAbsolute_join habsolute (.parse path))
    have hjoined : config.resolvedPath path = '/' :: rest := by
      rw [← hrest]
      exact if_neg hpath
    rw [hjoined]
    exact if_pos (PosixPath.isAbsolute_parse_slash rest)

theorem directory_of_load {config : CheckpointConfig} {digits : DecimalDigits}
    (hmode : config.resumeMode = .resumePath)
    (hpath : config.resumeFromPath = some path)
    {loadActor : List Char → Except CheckpointError Unit}
    (hload : config.load digits findLatest loadActor =
      .ok (some (step, directory))) :
    directory = config.resolvedPath path := by
  unfold CheckpointConfig.load at hload
  obtain ⟨found, hfound, hrest⟩ := bind_eq_ok.mp hload
  unfold CheckpointConfig.findResumeCheckpointDir at hfound
  simp only [hmode, hpath] at hfound
  obtain ⟨_, _, hfound⟩ := bind_eq_ok.mp hfound
  obtain ⟨_, _, hfound⟩ := bind_eq_ok.mp hfound
  cases hfound
  obtain ⟨_, _, hrest⟩ := bind_eq_ok.mp hrest
  obtain ⟨_, _, hrest⟩ := bind_eq_ok.mp hrest
  have hpair := Option.some.inj (Except.ok.inj hrest)
  exact (Prod.mk.inj hpair).2.symm

theorem loadThetaOld_eq (hcollected : window.Collected files thetaOld)
    (hload : window.loadThetaOld files = .ok policy) :
    policy = thetaOld := by
  unfold loadThetaOld at hload
  obtain ⟨loaded, hloaded, hrest⟩ := bind_eq_ok.mp hload
  cases hpath : window.collectedPath with
  | none =>
    cases loaded with
    | some state => simp [hpath] at hrest
    | none =>
      simp only [hpath, require_bind_eq_ok] at hrest
      rw [hcollected.native hpath]
      exact (Except.ok.inj hrest.2).symm
  | some path =>
    cases loaded with
    | none => simp [hpath] at hrest
    | some state =>
      obtain ⟨step, directory⟩ := state
      simp only [hpath, require_bind_eq_ok] at hrest
      obtain ⟨-, -, hpolicy⟩ := hrest
      have hmode : window.config.resumeMode = .resumePath := by
        simp [config, hpath]
      have hdirectory : directory = window.config.resolvedPath path := by
        cases hresult : window.config.load window.digits (.ok none)
            (loadActor files) with
        | error error =>
          rw [hresult] at hloaded
          cases hloaded
        | ok value =>
          rw [hresult] at hloaded
          cases hloaded
          exact directory_of_load hmode hpath hresult
      rw [policyAt, hdirectory, hcollected.checkpoint path hpath] at hpolicy
      exact (Except.ok.inj hpolicy).symm

theorem FilesDone.advance (hfiles : window.FilesDone thetaOld entries files)
    {process : ℕ} {work : FitWork P}
    (hwork : window.WorkDone thetaOld files work)
    {written : List (TrainingEntry P)} {next : TrainingFiles P}
    {result : FitWork P ⊕ FitPhase P}
    (hstep : window.advance process files work = (written, next, result)) :
    window.FilesDone thetaOld (entries ++ written) next ∧
      ∀ work, result = .inl work → window.WorkDone thetaOld next work := by
  have hquiet : ∀ next : TrainingFiles P, next.receipt = files.receipt →
      (∀ directory, directory ≠ window.newDir →
        next.disk directory = files.disk directory) →
      (∀ receipt, files.receipt = some receipt →
        next.disk window.newDir = files.disk window.newDir) →
      window.FilesDone thetaOld (entries ++ []) next := by
    intro next hreceipt hdisk hkept
    rw [List.append_nil]
    refine ⟨hfiles.collected.of_newDir hdisk, hfiles.lawful, ?_, ?_⟩
    · rw [hreceipt]
      exact hfiles.unpublished
    · intro receipt hpublished
      rw [hreceipt] at hpublished
      rw [hkept receipt hpublished]
      exact hfiles.receipt receipt hpublished
  have hwritten : ∀ contents directory, directory ≠ window.newDir →
      (window.writeNewDir files contents).disk directory =
        files.disk directory :=
    fun contents directory hne => Function.update_of_ne hne _ _
  cases work with
  | opened =>
    cases hreceipt : files.receipt with
    | some receipt =>
      simp only [TrainingWindow.advance, hreceipt] at hstep
      obtain ⟨rfl, rfl, rfl⟩ := hstep
      exact ⟨hquiet _ rfl (fun _ _ => rfl) (fun _ _ => rfl), nofun⟩
    | none =>
      simp only [TrainingWindow.advance, hreceipt] at hstep
      obtain ⟨rfl, rfl, rfl⟩ := hstep
      refine ⟨hquiet _ rfl (fun _ _ => rfl) (fun _ _ => rfl), ?_⟩
      intro next hresult
      obtain rfl := Sum.inl.inj hresult
      exact hreceipt
  | starting =>
    cases hload : window.loadThetaOld files with
    | error error =>
      simp only [TrainingWindow.advance, hload] at hstep
      obtain ⟨rfl, rfl, rfl⟩ := hstep
      exact ⟨hquiet _ rfl (fun _ _ => rfl) (fun _ _ => rfl), nofun⟩
    | ok policy =>
      simp only [TrainingWindow.advance, hload] at hstep
      obtain ⟨rfl, rfl, rfl⟩ := hstep
      refine ⟨hquiet _ rfl (fun _ _ => rfl) (fun _ _ => rfl), ?_⟩
      intro next hresult
      obtain rfl := Sum.inl.inj hresult
      exact ⟨hwork, loadThetaOld_eq hfiles.collected hload⟩
  | loaded policy =>
    obtain ⟨rfl, rfl, rfl⟩ := hstep
    obtain ⟨hnone, hpolicy⟩ := hwork
    have hearlier := hfiles.unpublished hnone
    refine ⟨⟨hfiles.collected, hfiles.lawful.snoc ⟨hearlier, hpolicy⟩, ?_,
      hfiles.receipt⟩, ?_⟩
    · intro _ entry hentry
      rcases List.mem_append.mp hentry with hentry | hentry
      · exact hearlier entry hentry
      · rw [List.mem_singleton.mp hentry]
        rfl
    · intro next hresult
      obtain rfl := Sum.inl.inj hresult
      exact ⟨hnone, process, by rw [hpolicy]⟩
  | trained policy =>
    obtain ⟨rfl, rfl, rfl⟩ := hstep
    refine ⟨hquiet _ rfl (hwritten _) ?_, ?_⟩
    · intro receipt hreceipt
      rw [hwork.1] at hreceipt
      cases hreceipt
    · intro next hresult
      obtain rfl := Sum.inl.inj hresult
      exact hwork
  | saving policy =>
    obtain ⟨rfl, rfl, rfl⟩ := hstep
    refine ⟨hquiet _ rfl (hwritten _) ?_, ?_⟩
    · intro receipt hreceipt
      rw [hwork.1] at hreceipt
      cases hreceipt
    · intro next hresult
      obtain rfl := Sum.inl.inj hresult
      exact ⟨hwork.1, hwork.2, Function.update_self _ _ _⟩
  | actorSaved policy | marking policy =>
    obtain ⟨rfl, rfl, rfl⟩ := hstep
    refine ⟨hquiet _ rfl (fun _ _ => rfl) (fun _ _ => rfl), ?_⟩
    intro next hresult
    obtain rfl := Sum.inl.inj hresult
    exact hwork
  | saved policy =>
    simp only [TrainingWindow.advance, hwork.1] at hstep
    obtain ⟨rfl, rfl, rfl⟩ := hstep
    refine ⟨hquiet _ rfl (fun _ _ => rfl) (fun _ _ => rfl), ?_⟩
    intro next hresult
    obtain rfl := Sum.inl.inj hresult
    exact hwork
  | publishing policy =>
    obtain ⟨rfl, rfl, rfl⟩ := hstep
    obtain ⟨hnone, hupdate, hdisk⟩ := hwork
    have hearlier := hfiles.unpublished hnone
    refine ⟨⟨⟨hfiles.collected.native, hfiles.collected.checkpoint,
      hfiles.collected.distinct⟩, hfiles.lawful.snoc ⟨hearlier, rfl⟩,
      nofun, ?_⟩, ?_⟩
    · intro receipt hreceipt
      exact ⟨(Option.some.inj hreceipt).symm, policy, hupdate, hdisk⟩
    · intro next hresult
      obtain rfl := Sum.inl.inj hresult
      rfl
  | published receipt =>
    obtain ⟨rfl, rfl, rfl⟩ := hstep
    exact ⟨hquiet _ rfl (fun _ _ => rfl) (fun _ _ => rfl), nofun⟩

/-! ## Whole runs -/

def SpelledAs (argument : ReceiptArgument) (label : ℕ × FitAction) : Prop :=
  ∀ other, label.2 = .begin other → other = argument

/-- A process may enter a phase that agrees with the files, beside what the
other ones hold. -/
theorem OneTrainer.enter {argument : ReceiptArgument}
    {state : TrainingState P}
    (hstate : window.OneTrainer argument thetaOld entries state)
    {more : List (TrainingEntry P)} {next : TrainingFiles P}
    (hfiles : window.FilesDone thetaOld (entries ++ more) next)
    {locks : String → Option ℕ} {process : ℕ} {phase : FitPhase P}
    (hwaiting : ∀ other, phase = .waiting other → other = argument)
    (hholding : ∀ other work, phase = .holding other work →
      other = argument ∧ locks argument.lockName = some process ∧
        window.WorkDone thetaOld next work)
    (hothers : ∀ other spelled work, other ≠ process →
      state.phases other = .holding spelled work →
      locks argument.lockName = some other ∧
        window.WorkDone thetaOld next work)
    (hlocked : ∀ other, locks argument.lockName = some other →
      other ≠ process ∧ state.locks argument.lockName = some other ∨
        other = process ∧ ∃ work, phase = .holding argument work) :
    window.OneTrainer argument thetaOld (entries ++ more)
      ⟨next, locks, Function.update state.phases process phase⟩ := by
  refine ⟨hfiles, ?_, ?_, ?_⟩
  · intro other spelled hphase
    simp only at hphase
    by_cases hsame : other = process
    · rw [hsame, Function.update_self] at hphase
      exact hwaiting spelled hphase
    · rw [Function.update_of_ne hsame] at hphase
      exact hstate.waiting other spelled hphase
  · intro other spelled work hphase
    simp only at hphase
    by_cases hsame : other = process
    · rw [hsame, Function.update_self] at hphase
      rw [hsame]
      exact hholding spelled work hphase
    · rw [Function.update_of_ne hsame] at hphase
      obtain ⟨hspelled, -, -⟩ := hstate.holding other spelled work hphase
      exact ⟨hspelled, hothers other spelled work hsame hphase⟩
  · intro other hlock
    simp only at hlock ⊢
    rcases hlocked other hlock with ⟨hne, hbefore⟩ | ⟨rfl, work, rfl⟩
    · rw [Function.update_of_ne hne]
      exact hstate.locked other hbefore
    · exact ⟨work, Function.update_self _ _ _⟩

theorem OneTrainer.alone
    (hstate : window.OneTrainer argument thetaOld entries state)
    (hphase : state.phases process = .holding spelled work)
    (hother : state.phases other = .holding otherSpelled otherWork) :
    other = process := by
  have hlock := (hstate.holding process spelled work hphase).2.1
  have hotherLock := (hstate.holding other otherSpelled otherWork hother).2.1
  exact Option.some.inj (hotherLock.symm.trans hlock)

theorem advance_ends
    (hstep : window.advance process files work = (written, next, .inr phase)) :
    (∃ receipt, phase = .returned receipt) ∨
      ∃ error, phase = .raised error := by
  cases work with
  | opened =>
    cases hreceipt : files.receipt with
    | none => simp [TrainingWindow.advance, hreceipt] at hstep
    | some receipt =>
      simp only [TrainingWindow.advance, hreceipt] at hstep
      exact .inl ⟨receipt, (Sum.inr.inj (congrArg (·.2.2) hstep)).symm⟩
  | starting =>
    cases hload : window.loadThetaOld files with
    | ok policy => simp [TrainingWindow.advance, hload] at hstep
    | error error =>
      simp only [TrainingWindow.advance, hload] at hstep
      exact .inr ⟨error, (Sum.inr.inj (congrArg (·.2.2) hstep)).symm⟩
  | saved policy =>
    cases hreceipt : files.receipt with
    | none => simp [TrainingWindow.advance, hreceipt] at hstep
    | some receipt =>
      simp only [TrainingWindow.advance, hreceipt] at hstep
      exact .inr ⟨_, (Sum.inr.inj (congrArg (·.2.2) hstep)).symm⟩
  | published receipt =>
    exact .inl ⟨receipt, (Sum.inr.inj (congrArg (·.2.2) hstep)).symm⟩
  | loaded policy | trained policy | saving policy | actorSaved policy
  | marking policy | publishing policy => cases hstep

theorem OneTrainer.step
    (hstate : window.OneTrainer argument thetaOld entries state)
    (hspelled : SpelledAs argument label)
    (hstep : window.fitOneUpdate.step state label = some (written, next)) :
    window.OneTrainer argument thetaOld (entries ++ written) next := by
  obtain ⟨process, action⟩ := label
  have hquiet : window.FilesDone thetaOld (entries ++ []) state.files := by
    rw [List.append_nil]
    exact hstate.files
  have hkept : ∀ other spelled work, other ≠ process →
      state.phases other = .holding spelled work →
      state.locks argument.lockName = some other ∧
        window.WorkDone thetaOld state.files work :=
    fun other spelled work _ hphase =>
      (hstate.holding other spelled work hphase).2
  cases action with
  | begin spelled =>
    cases hphase : state.phases process <;>
      simp only [fitOneUpdate, hphase, reduceCtorEq] at hstep
    cases hstep
    apply hstate.enter hquiet
    · intro other hwaiting
      split_ifs at hwaiting
      rw [← FitPhase.waiting.inj hwaiting]
      exact hspelled spelled rfl
    · intro other work hholding
      split_ifs at hholding
    · exact hkept
    · intro other hlock
      obtain ⟨work, hholding⟩ := hstate.locked other hlock
      left
      refine ⟨?_, hlock⟩
      rintro rfl
      simp [hphase] at hholding
  | acquire =>
    cases hphase : state.phases process <;>
      simp only [fitOneUpdate, hphase, reduceCtorEq] at hstep
    rename_i spelled
    have hsame := hstate.waiting process spelled hphase
    split_ifs at hstep with hfree
    cases hstep
    rw [hsame] at hfree
    apply hstate.enter hquiet
    · exact nofun
    · intro other work hholding
      obtain ⟨rfl, rfl⟩ := FitPhase.holding.inj hholding
      rw [hsame]
      exact ⟨rfl, Function.update_self _ _ _, trivial⟩
    · intro other otherSpelled work hne hother
      have hlock := (hkept other otherSpelled work hne hother).1
      simp [hfree] at hlock
    · intro other hlock
      rw [hsame, Function.update_self] at hlock
      rw [hsame]
      exact .inr ⟨(Option.some.inj hlock).symm, .opened, rfl⟩
  | advance =>
    cases hphase : state.phases process <;>
      simp only [fitOneUpdate, hphase, reduceCtorEq] at hstep
    rename_i spelled work
    obtain ⟨hsame, hlock, hwork⟩ := hstate.holding process spelled work hphase
    rcases hadvance : window.advance process state.files work with
      ⟨more, files, result⟩
    rw [hadvance] at hstep
    obtain ⟨hfiles, hnext⟩ := hstate.files.advance hwork hadvance
    have halone : ∀ other otherSpelled otherWork, other ≠ process →
        state.phases other ≠ .holding otherSpelled otherWork :=
      fun other _ _ hne hother => hne (hstate.alone hphase hother)
    cases result with
    | inl nextWork =>
      cases hstep
      apply hstate.enter hfiles
      · exact nofun
      · intro other work hholding
        obtain ⟨rfl, rfl⟩ := FitPhase.holding.inj hholding
        exact ⟨hsame, hlock, hnext _ rfl⟩
      · intro other otherSpelled otherWork hne hother
        exact absurd hother (halone other otherSpelled otherWork hne)
      · intro other hheld
        rw [hlock] at hheld
        rw [hsame]
        exact .inr ⟨(Option.some.inj hheld).symm, nextWork, rfl⟩
    | inr phase =>
      cases hstep
      have hends := advance_ends hadvance
      apply hstate.enter hfiles
      · rintro other rfl
        rcases hends with ⟨_, hreturned⟩ | ⟨_, hraised⟩
        · cases hreturned
        · cases hraised
      · rintro other otherWork rfl
        rcases hends with ⟨_, hreturned⟩ | ⟨_, hraised⟩
        · cases hreturned
        · cases hraised
      · intro other otherSpelled otherWork hne hother
        exact absurd hother (halone other otherSpelled otherWork hne)
      · intro other hheld
        rw [hsame, Function.update_self] at hheld
        cases hheld
  | crash =>
    cases hphase : state.phases process with
    | waiting spelled =>
      simp only [fitOneUpdate, hphase] at hstep
      cases hstep
      apply hstate.enter hquiet
      · exact nofun
      · exact nofun
      · exact hkept
      · intro other hlock
        obtain ⟨work, hholding⟩ := hstate.locked other hlock
        left
        refine ⟨?_, hlock⟩
        rintro rfl
        simp [hphase] at hholding
    | holding spelled work =>
      simp only [fitOneUpdate, hphase] at hstep
      cases hstep
      apply hstate.enter hquiet
      · exact nofun
      · exact nofun
      · intro other otherSpelled otherWork hne hother
        exact absurd (hstate.alone hphase hother) hne
      · intro other hlock
        obtain ⟨hsame, -, -⟩ := hstate.holding process spelled work hphase
        rw [hsame, Function.update_self] at hlock
        cases hlock
    | idle | returned receipt | raised error | dead =>
      simp [fitOneUpdate, hphase] at hstep

/-! ## A retry completes -/

variable (window) in
/-- The collected checkpoint can be resumed from, or the native model is what
collected the window. -/
structure Startable : Prop where
  update : (window.spec.intendedUpdate : ℤ) =
    window.spec.policy.rolloutPolicyVersion + 1
  native : window.collectedPath = none →
    window.spec.policy.rolloutPolicyVersion = 0
  local_ : window.base.defaultHdfsDir = none
  working : window.base.workingDir.isAbsolute = true
  named : ∀ path, window.collectedPath = some path → stepPattern <:+: path
  step : ∀ path, window.collectedPath = some path → ∃ step : ℕ,
    (step : ℤ) = window.spec.policy.rolloutPolicyVersion ∧
      firstStep window.digits (window.config.resolvedPath path) = some step

theorem loadThetaOld_ok (hstart : window.Startable)
    (hcollected : window.Collected files thetaOld) :
    window.loadThetaOld files = .ok thetaOld := by
  unfold loadThetaOld
  cases hpath : window.collectedPath with
  | none =>
    have hload : window.config.load window.digits (.ok none)
        (loadActor files) = .ok none := by
      unfold CheckpointConfig.load CheckpointConfig.findResumeCheckpointDir
      simp only [config, hpath, if_true]
      rfl
    rw [hload, hcollected.native hpath]
    change (require _ _ >>= fun _ => Except.ok window.native) = _
    rw [require_of (hstart.native hpath)]
    rfl
  | some path =>
    obtain ⟨step, hversion, hstep⟩ := hstart.step path hpath
    have hdisk := hcollected.checkpoint path hpath
    have hactor : loadActor files (window.config.resolvedPath path) =
        .ok () := by
      rw [loadActor, hdisk]
    have hload : window.config.load window.digits (.ok none)
        (loadActor files) =
          .ok (some (step, window.config.resolvedPath path)) := by
      have hfound : window.config.findResumeCheckpointDir (.ok none) =
          .ok (some (window.config.resolvedPath path)) := by
        unfold CheckpointConfig.findResumeCheckpointDir
        simp only [config, hpath, reduceCtorEq, if_false,
          require_of hstart.local_]
        rw [require_of (hstart.named path hpath)]
        rfl
      unfold CheckpointConfig.load
      rw [hfound]
      change (CheckpointConfig.parseGlobalStep _ _ >>= fun found =>
        loadActor files (window.config.resolvedPath path) >>=
          fun _ => .ok (some (found, _))) = _
      rw [parseGlobalStep_eq_ok_iff.mpr hstep]
      change (loadActor files _ >>= fun _ => _) = _
      rw [hactor]
      rfl
    rw [hload]
    change (require _ _ >>= fun _ => require _ _ >>= fun _ =>
      policyAt files (window.config.resolvedPath path)) = _
    rw [require_of hversion, require_of
      (resolvedPath_idem window.config hstart.working path),
      policyAt, hdisk]
    rfl

def stepsLeft : FitWork P → ℕ
  | .opened => 9
  | .starting => 8
  | .loaded _ => 7
  | .trained _ => 6
  | .saving _ => 5
  | .actorSaved _ => 4
  | .marking _ => 3
  | .saved _ => 2
  | .publishing _ => 1
  | .published _ => 0

theorem advance_progresses (hstart : window.Startable)
    (hcollected : window.Collected files thetaOld) (process : ℕ)
    (hwork : window.WorkDone thetaOld files work) :
    ∃ written next, (∃ receipt, window.advance process files work =
        (written, next, .inr (.returned receipt))) ∨
      ∃ later, stepsLeft later < stepsLeft work ∧
        window.advance process files work = (written, next, .inl later) := by
  cases work with
  | opened =>
    unfold advance
    cases files.receipt with
    | some receipt => exact ⟨_, _, .inl ⟨receipt, rfl⟩⟩
    | none => exact ⟨_, _, .inr ⟨.starting, Nat.lt_succ_self _, rfl⟩⟩
  | starting =>
    simp only [advance, loadThetaOld_ok hstart hcollected]
    exact ⟨_, _, .inr ⟨.loaded thetaOld, Nat.lt_succ_self _, rfl⟩⟩
  | loaded policy | trained policy | saving policy | actorSaved policy
  | marking policy => exact ⟨_, _, .inr ⟨_, Nat.lt_succ_self _, rfl⟩⟩
  | saved policy =>
    simp only [advance, hwork.1]
    exact ⟨_, _, .inr ⟨.publishing policy, Nat.lt_succ_self _, rfl⟩⟩
  | publishing policy => exact ⟨_, _, .inr ⟨_, Nat.lt_succ_self _, rfl⟩⟩
  | published receipt => exact ⟨_, _, .inl ⟨receipt, rfl⟩⟩

def Completes (window : TrainingWindow P) (process : ℕ)
    (state : TrainingState P) : Prop :=
  ∃ events last receipt, Run window.fitOneUpdate state events last ∧
    (∀ event ∈ events, event.label.1 = process ∧ event.label.2 ≠ .crash) ∧
    last.phases process = .returned receipt

theorem Completes.cons {process : ℕ} {state next : TrainingState P}
    {action : FitAction} {written : List (TrainingEntry P)}
    (hstep : window.fitOneUpdate.step state (process, action) =
      some (written, next)) (haction : action ≠ .crash)
    (hnext : window.Completes process next) :
    window.Completes process state := by
  obtain ⟨events, last, receipt, hrun, hown, hlast⟩ := hnext
  refine ⟨_, last, receipt, hrun.cons hstep, ?_, hlast⟩
  intro event hevent
  rcases List.mem_cons.mp hevent with rfl | hevent
  · exact ⟨rfl, haction⟩
  · exact hown event hevent

theorem completes_of_holding (hstart : window.Startable)
    (hstate : window.OneTrainer argument thetaOld entries state)
    (hphase : state.phases process = .holding argument work) :
    window.Completes process state := by
  generalize hsteps : stepsLeft work = steps
  induction steps using Nat.strong_induction_on
    generalizing entries state work with
  | _ steps ih =>
    obtain ⟨-, -, hwork⟩ := hstate.holding process argument work hphase
    obtain ⟨written, next, hadvance⟩ := advance_progresses hstart
      hstate.files.collected process hwork
    rcases hadvance with ⟨receipt, hadvance⟩ | ⟨later, hfewer, hadvance⟩
    · have hstep : window.fitOneUpdate.step state (process, .advance) =
          some (written, ⟨next,
            Function.update state.locks argument.lockName none,
            Function.update state.phases process (.returned receipt)⟩) := by
        simp only [fitOneUpdate, hphase, hadvance]
      refine Completes.cons hstep nofun ⟨[], _, receipt, .nil, nofun, ?_⟩
      exact Function.update_self _ _ _
    · have hstep : window.fitOneUpdate.step state (process, .advance) =
          some (written, ⟨next, state.locks,
            Function.update state.phases process
              (.holding argument later)⟩) := by
        simp only [fitOneUpdate, hphase, hadvance]
      apply Completes.cons hstep nofun
      apply ih (stepsLeft later) (hsteps ▸ hfewer)
        (hstate.step (fun _ hother => FitAction.noConfusion hother) hstep)
      · exact Function.update_self _ _ _
      · rfl

theorem completes_of_idle (hstart : window.Startable)
    (hstate : window.OneTrainer argument thetaOld entries state)
    (hidle : state.phases process = .idle)
    (hfree : state.locks argument.lockName = none) :
    window.Completes process state := by
  have hbegin : window.fitOneUpdate.step state (process, .begin argument) =
      some ([], { state with
        phases := Function.update state.phases process
          (.waiting argument) }) := by
    simp only [fitOneUpdate, hidle, if_pos hstart.update]
  apply Completes.cons hbegin nofun
  have hspelled : SpelledAs argument (process, FitAction.begin argument) :=
    fun other hother => (FitAction.begin.inj hother).symm
  have hwaiting := hstate.step hspelled hbegin
  generalize hnext : ({ state with
    phases := Function.update state.phases process (.waiting argument) } :
      TrainingState P) = next at hwaiting
  have hphase : next.phases process = .waiting argument := by
    rw [← hnext]
    exact Function.update_self _ _ _
  have hlock : next.locks argument.lockName = none := by
    rw [← hnext]
    exact hfree
  have hacquire : window.fitOneUpdate.step next (process, .acquire) =
      some ([], { next with
        locks := Function.update next.locks argument.lockName (some process)
        phases := Function.update next.phases process
          (.holding argument .opened) }) := by
    simp only [fitOneUpdate, hphase, if_pos hlock]
  apply Completes.cons hacquire nofun
  apply completes_of_holding hstart
    (hwaiting.step (fun _ hother => FitAction.noConfusion hother) hacquire)
  exact Function.update_self _ _ _

/-- A process that is not there yet completes, once the holder of the lock is
gone. -/
def Retriable (window : TrainingWindow P) (argument : ReceiptArgument)
    (state : TrainingState P) : Prop :=
  match state.locks argument.lockName with
  | none => ∀ process, state.phases process = .idle →
      window.Completes process state
  | some holder => ∃ next, window.fitOneUpdate.step state (holder, .crash) =
      some ([], next) ∧ ∀ process, state.phases process = .idle →
        window.Completes process next

theorem OneTrainer.retriable (hstart : window.Startable)
    (hstate : window.OneTrainer argument thetaOld entries state) :
    window.Retriable argument state := by
  unfold Retriable
  cases hlock : state.locks argument.lockName with
  | none =>
    exact fun process hidle => completes_of_idle hstart hstate hidle hlock
  | some holder =>
    obtain ⟨work, hphase⟩ := hstate.locked holder hlock
    have hcrash : window.fitOneUpdate.step state (holder, .crash) =
        some ([], ⟨state.files,
          Function.update state.locks argument.lockName none,
          Function.update state.phases holder .dead⟩) := by
      simp only [fitOneUpdate, hphase]
    refine ⟨_, hcrash, ?_⟩
    intro process hidle
    have hspelled : SpelledAs argument (holder, FitAction.crash) :=
      fun _ hother => FitAction.noConfusion hother
    have hnext := hstate.step hspelled hcrash
    have hne : process ≠ holder := by
      rintro rfl
      simp [hidle] at hphase
    apply completes_of_idle hstart hnext
    · exact (Function.update_of_ne hne _ _).trans hidle
    · exact Function.update_self _ _ _

theorem countP_published_le_one
    (hlawful : Lawful (window.TrainingLaw thetaOld) entries) :
    entries.countP published ≤ 1 := by
  rcases List.eq_nil_or_concat' entries with rfl | ⟨earlier, entry, rfl⟩
  · exact Nat.zero_le 1
  · have hzero : earlier.countP published = 0 :=
      List.countP_eq_zero.mpr fun other hother => by
        rw [hlawful.last.1 other hother]
        exact Bool.false_ne_true
    rw [List.countP_append, hzero, Nat.zero_add]
    exact List.countP_le_length

/-- Over every run of trainers that spell the receipt the same way, one receipt
at most is published, updates start from the policy that collected the window
and precede the receipt, the receipt names a complete checkpoint, and a retry
completes from everywhere. -/
theorem one_update_for_a_window (window : TrainingWindow P) {thetaOld : P}
    {files : TrainingFiles P} (hcollected : window.Collected files thetaOld)
    (hstart : window.Startable) (hunpublished : files.receipt = none)
    (argument : ReceiptArgument)
    {events : List (Event (TrainingState P) (ℕ × FitAction)
      (List (TrainingEntry P)))} {final : TrainingState P}
    (hrun : Run window.fitOneUpdate (.initial files) events final)
    (hspelled : ∀ event ∈ events, SpelledAs argument event.label) :
    Lawful (window.TrainingLaw thetaOld) (log events) ∧
      (log events).countP published ≤ 1 ∧
      (∀ receipt, final.files.receipt = some receipt →
        ∃ policy, window.IsUpdate thetaOld policy ∧
          final.files.disk receipt.checkpointDir = .complete policy) ∧
      window.Retriable argument final := by
  have hone : window.OneTrainer argument thetaOld (log events) final := by
    apply hrun.log_invariant (fun _ label => SpelledAs argument label)
      (window.OneTrainer argument thetaOld)
    · intro entries state label output next hstate hlabel hstep
      exact hstate.step hlabel hstep
    · exact hspelled
    · refine ⟨⟨hcollected, lawful_nil, fun _ => nofun, ?_⟩, nofun, nofun,
        nofun⟩
      intro receipt hreceipt
      change files.receipt = some receipt at hreceipt
      simp [hunpublished] at hreceipt
  refine ⟨hone.files.lawful, countP_published_le_one hone.files.lawful, ?_,
    hone.retriable hstart⟩
  intro receipt hreceipt
  obtain ⟨rfl, policy, hupdate, hdisk⟩ := hone.files.receipt receipt hreceipt
  exact ⟨policy, hupdate, hdisk⟩

/-! ## Trainers of one window -/

open CollectionStore in
def nativeSpec : CollectionWindowSpec where
  toWindowFields := { pairSpec.toWindowFields with
    policy := { pairSpec.policy with rolloutPolicyVersion := 0 } }
  checked := by decide +kernel

/-- Policies count the updates they took. -/
def nativeWindow : TrainingWindow ℕ where
  spec := nativeSpec
  base := checkpointsIn ['/', 'r', 'u', 'n']
  digits := asciiDigits
  native := 0
  update _ policy := policy + 1

def noFiles : TrainingFiles ℕ := ⟨fun _ => .absent, none, none⟩

theorem collected_noFiles : nativeWindow.Collected noFiles 0 :=
  ⟨fun _ => rfl, nofun, nofun⟩

theorem startable_nativeWindow : nativeWindow.Startable :=
  ⟨rfl, fun _ => rfl, rfl, rfl, nofun, nofun⟩

def trains (process : ℕ) (argument : ReceiptArgument) (steps : ℕ) :
    List (ℕ × FitAction) :=
  (process, .begin argument) :: (process, .acquire) ::
    List.replicate steps (process, .advance)

/-- The first trainer dies after its actor is saved, and the second one
completes. -/
theorem retry_after_crash : ∃ events final,
      Run nativeWindow.fitOneUpdate (.initial noFiles) events final ∧
        (log events).countP published = 1 ∧
        Lawful (nativeWindow.TrainingLaw 0) (log events) ∧
        final.files.receipt = some nativeWindow.receipt := by
  have hsome : (nativeWindow.fitOneUpdate.exec (.initial noFiles)
      (trains 0 .implicit 5 ++ (0, .crash) ::
        trains 1 .implicit 10)).isSome = true := rfl
  obtain ⟨⟨events, final⟩, hexec⟩ := Option.isSome_iff_exists.mp hsome
  have hrun := Machine.run_of_exec hexec
  have hlabels := Machine.labels_of_exec hexec
  have hspelled : ∀ event ∈ events, SpelledAs .implicit event.label := by
    intro event hevent other hother
    have hlabel : event.label ∈ events.map Event.label :=
      List.mem_map_of_mem hevent
    rw [hlabels] at hlabel
    have hall : ∀ label ∈ trains 0 .implicit 5 ++ (0, .crash) ::
        trains 1 .implicit 10, label.2 ≠ .begin .explicit := by
      decide
    cases other with
    | implicit => rfl
    | explicit => exact absurd hother (hall event.label hlabel)
  have hone := one_update_for_a_window nativeWindow collected_noFiles
    startable_nativeWindow rfl .implicit hrun hspelled
  cases hexec
  exact ⟨_, _, hrun, rfl, hone.1, rfl⟩

/-- Two trainers that spell the receipt differently hold two locks, and both
update the window and publish. -/
theorem two_spellings_publish_twice :
    ((nativeWindow.fitOneUpdate.exec (.initial noFiles)
      (trains 0 .implicit 8 ++ trains 1 .explicit 8 ++
        [(0, .advance), (1, .advance)])).map fun run =>
          (log run.1).map published) =
      some [false, false, true, true] := by
  rfl

end TrainingWindow

end VerlVla
