import VerlVla.CheckpointHelper

/-!
# Resuming from the last save

A marker that is never cut names the last save that returned, whose actor is
complete.  The step that a load returns is the one of its directory unless the
path names another step earlier.
-/

namespace VerlVla

open Transition

variable {digits : DecimalDigits} {config : CheckpointConfig}

def lastSave (config : CheckpointConfig) (state : CheckpointState) :
    Except CheckpointError (Option (ℕ × List Char)) :=
  .ok (state.saved.getLast?.map fun step => (step, config.stepDir step))

/-- No other step is named in the path before the directory. -/
def Readable (digits : DecimalDigits) (config : CheckpointConfig)
    (state : CheckpointState) : Prop :=
  ∀ step, state.saved.getLast? = some step →
    firstStep digits config.beforeStep = none ∨
      firstStep digits config.beforeStep = some step

/-- Steps increase, and the process does not die in the marker. -/
def OrderlySave (state : CheckpointState) : CheckpointCall → Prop
  | .save call => (∀ earlier ∈ state.saved, earlier < call.step) ∧
      ∀ count, call.stop ≠ some (.inMarker count)
  | .load => True

/-- Workers do not remove the actor of the last save before the next one
returns. -/
def KeepsLastActor (state : CheckpointState) : CheckpointCall → Prop
  | .save call => call.stop = none ∨
      ∀ step, state.saved.getLast? = some step → step ∉ call.removed
  | .load => True

structure MarkerCurrent (state : CheckpointState) : Prop where
  marker : state.disk.marker =
    state.saved.getLast?.map fun step => Nat.toDigits 10 step
  complete : ∀ step, state.saved.getLast? = some step →
    step ∈ state.disk.directories ∧ step ∈ state.disk.actors

theorem saveExtra_fields (call : SaveCall) (disk : CheckpointDisk) :
    (saveExtra call disk).marker = disk.marker ∧
      (saveExtra call disk).directories = disk.directories ∧
      (saveExtra call disk).actors = disk.actors := by
  unfold saveExtra
  split_ifs <;> exact ⟨rfl, rfl, rfl⟩

variable (config) in
theorem saveCheckpoint_stopped (hstop : call.stop = some stop)
    (hmarker : ∀ count, call.stop ≠ some (.inMarker count))
    (disk : CheckpointDisk) :
    (saveCheckpoint config call disk).marker = disk.marker ∧
      ∀ step, step ≠ call.step → step ∉ call.removed →
        step ∈ disk.directories → step ∈ disk.actors →
        step ∈ (saveCheckpoint config call disk).directories ∧
          step ∈ (saveCheckpoint config call disk).actors := by
  have hwritten : ∀ complete step, step ≠ call.step →
      step ∉ call.removed → step ∈ disk.directories → step ∈ disk.actors →
      step ∈ (disk.writeActor call.step complete call.removed).directories ∧
        step ∈ (disk.writeActor call.step complete call.removed).actors := by
    intro complete step hne hkept hdirectory hactor
    have hfiltered : step ∈ disk.actors.filter fun other =>
        other ≠ call.step && other ∉ call.removed := by
      simp [hactor, hne, hkept]
    refine ⟨List.mem_cons_of_mem _ hdirectory, ?_⟩
    cases complete with
    | true => exact List.mem_cons_of_mem _ hfiltered
    | false => exact hfiltered
  have hextra := saveExtra_fields call
    (disk.writeActor call.step true call.removed)
  unfold saveCheckpoint
  rw [hstop] at hmarker ⊢
  cases stop with
  | beforeActor => exact ⟨rfl, fun _ _ _ hdirectory hactor =>
    ⟨hdirectory, hactor⟩⟩
  | inActor => exact ⟨rfl, hwritten false⟩
  | afterActor => exact ⟨rfl, hwritten true⟩
  | inExtra | afterExtra =>
    rw [hextra.1, hextra.2.1, hextra.2.2]
    exact ⟨rfl, hwritten true⟩
  | inMarker count => exact absurd rfl (hmarker count)

theorem saveCheckpoint_returned (hasync : config.asyncSave = false)
    (hstop : call.stop = none) (disk : CheckpointDisk) :
    (saveCheckpoint config call disk).marker =
        some (Nat.toDigits 10 call.step) ∧
      call.step ∈ (saveCheckpoint config call disk).directories ∧
      call.step ∈ (saveCheckpoint config call disk).actors := by
  have hextra := saveExtra_fields call
    (disk.writeActor call.step true call.removed)
  unfold saveCheckpoint
  simp only [hstop, hasync, Bool.false_eq_true, if_false]
  refine ⟨rfl, ?_, ?_⟩
  · change call.step ∈ (saveExtra call _).directories
    rw [hextra.2.1]
    exact List.mem_cons_self
  · change call.step ∈ (saveExtra call _).actors
    rw [hextra.2.2]
    exact List.mem_cons_self

theorem MarkerCurrent.step (hasync : config.asyncSave = false)
    (hcurrent : MarkerCurrent state) (horderly : OrderlySave state label)
    (hkeeps : KeepsLastActor state label)
    (hstep : (checkpoints digits config).step state label =
      some (output, next)) : MarkerCurrent next := by
  cases label with
  | load =>
    obtain ⟨-, rfl⟩ := Prod.mk.inj (Option.some.inj hstep)
    exact hcurrent
  | save call =>
    obtain ⟨-, rfl⟩ := Prod.mk.inj (Option.some.inj hstep)
    cases hstop : call.stop with
    | none =>
      have hreturned := saveCheckpoint_returned hasync hstop state.disk
      simp only [if_true]
      constructor
      · rw [List.getLast?_concat]
        exact hreturned.1
      · intro step hlast
        rw [List.getLast?_concat] at hlast
        cases hlast
        exact hreturned.2
    | some stop =>
      obtain ⟨hmarker, hkept⟩ := saveCheckpoint_stopped config
        hstop horderly.2 state.disk
      have hremoved := hkeeps.resolve_left (by rw [hstop]; exact nofun)
      simp only [reduceCtorEq, if_false]
      constructor
      · rw [hmarker]
        exact hcurrent.marker
      · intro step hlast
        obtain ⟨hdirectory, hactor⟩ := hcurrent.complete step hlast
        have hne : step ≠ call.step :=
          (horderly.1 step (List.mem_of_getLast? hlast)).ne
        exact hkept step hne (hremoved step hlast) hdirectory hactor

/-! ## What a load returns -/

theorem stepDir_eq (step : ℕ) :
    config.stepDir step = config.beforeStep ++ stepName step := by
  unfold CheckpointConfig.stepDir CheckpointConfig.beforeStep joinText
  split_ifs with hslash
  · rfl
  · rw [List.append_assoc]
    rfl

theorem parseGlobalStep_eq_ok_iff :
    CheckpointConfig.parseGlobalStep digits directory = .ok step ↔
      firstStep digits directory = some step := by
  unfold CheckpointConfig.parseGlobalStep
  cases firstStep digits directory with
  | none | some found => simp

theorem resolvedPath_stepDir
    (habsolute : config.workingDir.isAbsolute = true) (step : ℕ) :
    config.resolvedPath (config.stepDir step) = config.stepDir step := by
  obtain ⟨rest, hrest⟩ := PosixPath.text_of_isAbsolute
    (PosixPath.isAbsolute_join habsolute (.parse config.defaultLocalDir))
  have hslash : ∃ rest, config.stepDir step = '/' :: rest := by
    unfold CheckpointConfig.stepDir CheckpointConfig.absoluteLocalDir joinText
    rw [hrest]
    split_ifs
    · exact ⟨rest ++ stepName step, rfl⟩
    · exact ⟨rest ++ '/' :: stepName step, rfl⟩
  obtain ⟨others, hothers⟩ := hslash
  unfold CheckpointConfig.resolvedPath
  rw [hothers, if_pos (PosixPath.isAbsolute_parse_slash others)]

/-- A load follows the marker to the last save, and returns its step where the
path does not name another one earlier. -/
theorem load_lastSave_iff (hmode : config.resumeMode = .auto)
    (hhdfs : config.defaultHdfsDir = none)
    (habsolute : config.workingDir.isAbsolute = true)
    (hcurrent : MarkerCurrent state) :
    config.load digits (state.disk.findLatest config)
        (state.disk.loadActor config) = lastSave config state ↔
      Readable digits config state := by
  have hfound : config.findResumeCheckpointDir (state.disk.findLatest config) =
        .ok (state.saved.getLast?.map config.stepDir) := by
    unfold CheckpointConfig.findResumeCheckpointDir
    simp only [hmode, require_of hhdfs]
    unfold CheckpointDisk.findLatest
    rw [hcurrent.marker]
    cases hlast : state.saved.getLast? with
    | none => rfl
    | some step =>
      have hdirectory := (hcurrent.complete step hlast).1
      simp only [Option.map_some]
      cases hdigits : Nat.toDigits 10 step with
      | nil => exact absurd hdigits Nat.toDigits_ne_nil
      | cons first rest =>
        have hstep : Nat.ofDigitChars 10 (first :: rest) 0 = step := by
          rw [← hdigits, Nat.ofDigitChars_ten_toDigits]
        simp only [hstep, if_pos hdirectory]
        exact congrArg (fun directory => Except.ok (some directory))
          (resolvedPath_stepDir habsolute step)
  unfold CheckpointConfig.load
  rw [hfound, lastSave, Readable]
  cases hlast : state.saved.getLast? with
  | none => exact ⟨fun _ _ => nofun, fun _ => rfl⟩
  | some step =>
    have hactor : state.disk.loadActor config (config.stepDir step) = .ok () :=
      require_of ⟨step, (hcurrent.complete step hlast).2, rfl⟩ _
    have hread : CheckpointConfig.parseGlobalStep digits
        (config.stepDir step) = .ok
          ((firstStep digits config.beforeStep).getD step) := by
      rw [CheckpointConfig.parseGlobalStep, stepDir_eq,
        firstStep_append_stepName]
    change (CheckpointConfig.parseGlobalStep digits (config.stepDir step) >>=
      fun found => state.disk.loadActor config (config.stepDir step) >>=
        fun _ => .ok (some (found, config.stepDir step))) =
        .ok (some (step, config.stepDir step)) ↔ _
    rw [hread]
    change (state.disk.loadActor config (config.stepDir step) >>=
      fun _ => .ok _) = _ ↔ _
    rw [hactor]
    change Except.ok (some (_, _)) = Except.ok (some (_, _)) ↔ _
    simp only [Except.ok.injEq, Option.some.injEq, Prod.mk.injEq, and_true,
      forall_eq']
    cases firstStep digits config.beforeStep with
    | none | some found => simp

theorem resolvedPath_append (config : CheckpointConfig) (parent : List Char)
    (step : ℕ) : ∃ before, config.resolvedPath (parent ++ stepName step) =
      before ++ stepName step := by
  unfold CheckpointConfig.resolvedPath
  split_ifs with habsolute
  · exact ⟨parent, rfl⟩
  · apply PosixPath.text_join_append
    · intro hslash
      rcases List.mem_append.mp hslash with hslash | hslash
      · exact absurd hslash (by decide)
      · have hdigit := Nat.isDigit_of_mem_toDigits (by decide) (by decide)
          hslash
        exact absurd hdigit (by decide)
    · rw [stepName, List.length_append]
      exact Nat.lt_add_right _ (by decide)
    · simpa using habsolute

/-- A load from a path returns the step that the path ends with where it names
no other one earlier. -/
theorem load_resumePath_iff (hmode : config.resumeMode = .resumePath)
    (hhdfs : config.defaultHdfsDir = none)
    (hpath : config.resumeFromPath = some (parent ++ stepName step))
    (hbefore : config.resolvedPath (parent ++ stepName step) =
      before ++ stepName step)
    (findLatest : Except CheckpointError (Option (List Char)))
    (hactor : ∀ directory, loadActor directory = .ok ()) :
    config.load digits findLatest loadActor =
        .ok (some (step, before ++ stepName step)) ↔
      firstStep digits before = none ∨
        firstStep digits before = some step := by
  have hnamed : stepPattern <:+: parent ++ stepName step :=
    ⟨parent, Nat.toDigits 10 step, by rw [stepName, List.append_assoc]⟩
  have hfound : config.findResumeCheckpointDir findLatest =
      .ok (some (before ++ stepName step)) := by
    unfold CheckpointConfig.findResumeCheckpointDir
    simp only [hmode, require_of hhdfs, hpath]
    rw [require_of hnamed, ← hbefore]
    rfl
  unfold CheckpointConfig.load
  rw [hfound]
  change (CheckpointConfig.parseGlobalStep digits (before ++ stepName step) >>=
    fun found => loadActor (before ++ stepName step) >>=
      fun _ => .ok (some (found, before ++ stepName step))) = _ ↔ _
  rw [← firstStep_append_stepName_iff, hactor]
  unfold CheckpointConfig.parseGlobalStep
  cases firstStep digits (before ++ stepName step) with
  | none => constructor <;> intro h <;> cases h
  | some found =>
    change Except.ok (some (found, _)) = Except.ok (some (step, _)) ↔ _
    simp

/-- Over every run whose saves do not die in the marker, a load returns the
last save exactly where the path names no other step earlier, and so does a
load from a path. -/
theorem resumed_step_is_saved_step (digits : DecimalDigits)
    (config : CheckpointConfig) (hmode : config.resumeMode = .auto)
    (hasync : config.asyncSave = false)
    (hhdfs : config.defaultHdfsDir = none)
    (hworking : config.workingDir.isAbsolute = true)
    {events : List (Event CheckpointState CheckpointCall
      (Option (Except CheckpointError (Option (ℕ × List Char)))))}
    {final : CheckpointState}
    (hrun : Run (checkpoints digits config) ⟨.empty, []⟩ events final)
    (horderly : ∀ event ∈ events, OrderlySave event.before event.label)
    (hkeeps : ∀ event ∈ events, KeepsLastActor event.before event.label) :
    (∀ event ∈ events, event.label = .load →
      (event.output = some (lastSave config event.before) ↔
        Readable digits config event.before)) ∧
    ∀ (parent : List Char) (step : ℕ),
      ∃ before, config.resolvedPath (parent ++ stepName step) =
          before ++ stepName step ∧
        ∀ findLatest, ({ config with
            resumeMode := .resumePath
            resumeFromPath := some (parent ++ stepName step) } :
              CheckpointConfig).load digits findLatest (fun _ => .ok ()) =
            .ok (some (step, before ++ stepName step)) ↔
          firstStep digits before = none ∨
            firstStep digits before = some step := by
  constructor
  · intro event hevent hload
    have hcurrent : MarkerCurrent event.before := by
      apply hrun.guarded_invariant_before
        (fun state label => OrderlySave state label ∧
          KeepsLastActor state label) MarkerCurrent
      · intro state label output next hcurrent hguard hstep
        exact hcurrent.step hasync hguard.1 hguard.2 hstep
      · exact fun other hother => ⟨horderly other hother, hkeeps other hother⟩
      · exact ⟨rfl, fun _ hlast => absurd hlast nofun⟩
      · exact hevent
    have hstep := hrun.step_of_mem hevent
    rw [hload] at hstep
    obtain ⟨houtput, -⟩ := Prod.mk.inj (Option.some.inj hstep)
    rw [← houtput, Option.some.injEq]
    exact load_lastSave_iff hmode hhdfs hworking hcurrent
  · intro parent step
    obtain ⟨before, hbefore⟩ := resolvedPath_append config parent step
    refine ⟨before, hbefore, fun findLatest => ?_⟩
    apply load_resumePath_iff
    · rfl
    · exact hhdfs
    · rfl
    · exact hbefore
    · exact fun _ => rfl

/-! ## A run that resumes and a run that does not -/

def asciiDigits : DecimalDigits where
  value char := if char.isDigit then some (char.toNat - '0'.toNat) else none
  ascii char hchar := if_pos hchar
  slash := by decide
  letter := by decide

def checkpointsIn (directory : List Char) : CheckpointConfig where
  resumeMode := .auto
  resumeFromPath := none
  defaultHdfsDir := none
  defaultLocalDir := directory
  asyncSave := false
  workingDir := ⟨.slash, []⟩

def returnedSave (step : ℕ) : CheckpointCall := .save ⟨step, true, [], none⟩

def savesThenLoad (saves : List CheckpointCall) (config : CheckpointConfig) :
    Option (List (Option (Except CheckpointError (Option (ℕ × List Char))))) :=
  ((checkpoints asciiDigits config).exec ⟨.empty, []⟩ (saves ++ [.load])).map
    fun run => run.1.map Event.output

example : savesThenLoad [returnedSave 12]
    (checkpointsIn ['/', 'r', 'u', 'n']) =
      some [none, some (.ok (some (12, ['/', 'r', 'u', 'n', '/'] ++
        stepName 12)))] := by
  rfl

/-- A save that dies after its actor, and the load of the one before it. -/
theorem stopped_save_is_not_resumed : ∃ events final, Run
        (checkpoints asciiDigits (checkpointsIn ['/', 'r', 'u', 'n']))
        ⟨.empty, []⟩ events final ∧
      ∃ event ∈ events, event.label = .load ∧
        event.before.saved = [5] ∧ event.output = some (lastSave
          (checkpointsIn ['/', 'r', 'u', 'n']) event.before) := by
  let config := checkpointsIn ['/', 'r', 'u', 'n']
  let labels : List CheckpointCall :=
    [returnedSave 5, .save ⟨12, true, [], some .afterActor⟩, .load]
  have hsome : ((checkpoints asciiDigits config).exec ⟨.empty, []⟩
      labels).isSome = true := rfl
  obtain ⟨⟨events, final⟩, hexec⟩ := Option.isSome_iff_exists.mp hsome
  have hrun := Machine.run_of_exec hexec
  cases hexec
  have hresume := (resumed_step_is_saved_step asciiDigits config rfl rfl rfl
    rfl hrun (by
      intro event hevent
      simp only [List.mem_cons, List.not_mem_nil, or_false] at hevent
      rcases hevent with rfl | rfl | rfl
      · constructor
        · intro _ hearlier
          cases hearlier
        · intro _ hmarker
          cases hmarker
      · constructor
        · intro earlier hearlier
          obtain rfl := List.mem_singleton.mp hearlier
          decide
        · intro _ hmarker
          cases hmarker
      · trivial) (by
      intro event hevent
      simp only [List.mem_cons, List.not_mem_nil, or_false] at hevent
      rcases hevent with rfl | rfl | rfl
      · exact .inl rfl
      · exact .inr fun _ _ => List.not_mem_nil
      · trivial)).1
  refine ⟨_, _, hrun, _, List.mem_cons_of_mem _ (List.mem_cons_of_mem _
    List.mem_cons_self), rfl, rfl, ?_⟩
  apply (hresume _ (List.mem_cons_of_mem _ (List.mem_cons_of_mem _
    List.mem_cons_self)) rfl).mpr
  intro step _
  exact .inl rfl

/-- The second save dies when its marker has been opened, and the path of the
second run names another step. -/
theorem load_fails_and_load_misreads :
    savesThenLoad [returnedSave 5, .save ⟨12, true, [], some (.inMarker 0)⟩]
        (checkpointsIn ['/', 'r', 'u', 'n']) =
        some [none, none, some (.error (.markerNotInteger []))] ∧
      savesThenLoad [returnedSave 12] (checkpointsIn ('/' :: stepName 7)) =
        some [none, some (.ok (some (7, '/' :: stepName 7 ++ '/' ::
          stepName 12)))] := by
  constructor
  · rfl
  · rfl

end VerlVla
