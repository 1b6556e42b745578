import VerlVla.CollectionOperations

/-!
# Interrupted initialization and closing

Here `initialize` and `close_if_ready` are lists of file-system steps, and a
process may die after any number of them.  The kernel then releases the window
lock, so the next caller starts from the files that are left.  A history mixes
complete and interrupted calls with the other operations of the store, which
their callers only start after `initialize` has returned.
-/

namespace VerlVla
namespace CollectionStore

open Transition

inductive Subdirectory
  | accepted
  | rejected
  | skipped
  | integrityFailures
  | leases
deriving DecidableEq

def allSubdirectories : List Subdirectory :=
  [.accepted, .rejected, .skipped, .integrityFailures, .leases]

/-- The window directory as it survives the death of a process. -/
structure Disk (ρ : Type) where
  windowDir : Bool
  lockFile : Bool
  temporaries : ℕ
  subdirectories : List Subdirectory
  window : Window ρ

inductive FsStep
  | makeWindowDir
  | openLock
  | writeTemporary
  | replaceManifest (manifest : StoredManifest)
  | touchOpen
  | makeSubdirectory (subdirectory : Subdirectory)
  | replaceClosed (record : ClosedRecord)
  | unlinkOpen
deriving DecidableEq

variable {ρ : Type}

namespace Disk

def absent : Disk ρ where
  windowDir := false
  lockFile := false
  temporaries := 0
  subdirectories := []
  window := .absent

def perform (disk : Disk ρ) : FsStep → Disk ρ
  | .makeWindowDir => { disk with windowDir := true }
  | .openLock => { disk with lockFile := true }
  | .writeTemporary => { disk with temporaries := disk.temporaries + 1 }
  | .replaceManifest manifest =>
    { disk with
      temporaries := disk.temporaries - 1
      window := { disk.window with manifest := some manifest } }
  | .touchOpen =>
    { disk with window := { disk.window with openMarker := true } }
  | .makeSubdirectory subdirectory =>
    { disk with
      subdirectories := disk.subdirectories.insert subdirectory }
  | .replaceClosed record =>
    { disk with
      temporaries := disk.temporaries - 1
      window := { disk.window with closed := some record } }
  | .unlinkOpen =>
    { disk with window := { disk.window with openMarker := false } }

def performAll (disk : Disk ρ) (steps : List FsStep) : Disk ρ :=
  steps.foldl perform disk

def setUp (disk : Disk ρ) : Prop :=
  ∀ subdirectory ∈ allSubdirectories, subdirectory ∈ disk.subdirectories

instance (disk : Disk ρ) : Decidable disk.setUp :=
  inferInstanceAs (Decidable (∀ _ ∈ _, _))

end Disk

/-- A call holding the window lock: its file-system steps and its result. -/
structure FsCall (α : Type) where
  steps : List FsStep
  result : α

def enterLock : List FsStep := [.makeWindowDir, .openLock]

def makeSubdirectories : List FsStep := allSubdirectories.map .makeSubdirectory

/-- Create the window or verify an existing window is identical. -/
def initializeWindow (spec : CollectionWindowSpec) (disk : Disk ρ) :
    FsCall (Except StoreError Unit) :=
  let expected := spec.toWindowFields
  match disk.window.manifest with
  | some actual =>
    if actual.normalize expected = expected then
      ⟨enterLock ++ makeSubdirectories, .ok ()⟩
    else ⟨enterLock, .error (.manifestMismatch expected actual)⟩
  | none =>
    ⟨enterLock ++
      [.writeTemporary, .replaceManifest expected.toManifest, .touchOpen] ++
      makeSubdirectories, .ok ()⟩

def closeIfReady (spec : CollectionWindowSpec) (now : ℚ) (disk : Disk ρ) :
    FsCall (Option ClosedRecord) :=
  match disk.window.closed with
  | some record => ⟨enterLock, some record⟩
  | none =>
    if disk.window.closeReady spec then
      let record := disk.window.closedRecord spec now
      ⟨enterLock ++ [.writeTemporary, .replaceClosed record, .unlinkOpen],
        some record⟩
    else ⟨enterLock, none⟩

def FsCall.executed {α : Type} (call : FsCall α) : Option ℕ → List FsStep
  | none => call.steps
  | some count => call.steps.take count

/-! ## Histories -/

inductive Action (ρ : Type)
  | initializing (died : Option ℕ)
  | closing (now : ℚ) (died : Option ℕ)
  | operate (operation : Operation ρ)

def Action.apply (spec : CollectionWindowSpec) (disk : Disk ρ) :
    Action ρ → Option (Option Reply × Disk ρ)
  | .initializing died =>
    some (none, disk.performAll ((initializeWindow spec disk).executed died))
  | .closing now died =>
    some (none, disk.performAll ((closeIfReady spec now disk).executed died))
  | .operate operation =>
    if disk.setUp then
      let answer := operation.apply spec disk.window
      some (some answer.1, { disk with window := answer.2 })
    else none

/-- Processes start, die and restart on one window directory. -/
def lifetime (ρ : Type) (spec : CollectionWindowSpec) :
    Machine (Disk ρ) (Action ρ) (Option Reply) where
  step disk action := action.apply spec disk

abbrev LifeEvent (ρ : Type) := Event (Disk ρ) (Action ρ) (Option Reply)

abbrev History (spec : CollectionWindowSpec) :
    Disk ρ → List (LifeEvent ρ) → Disk ρ → Prop :=
  Run (lifetime ρ spec)

/-- The process died after publishing the manifest and before marking the
window open. -/
def severs (spec : CollectionWindowSpec) (event : LifeEvent ρ) : Prop :=
  match event.label with
  | .initializing died =>
    let executed := (initializeWindow spec event.before).executed died
    .replaceManifest spec.toManifest ∈ executed ∧ .touchOpen ∉ executed
  | _ => False

instance (spec : CollectionWindowSpec) (event : LifeEvent ρ) :
    Decidable (severs spec event) := by
  unfold severs
  split <;> infer_instance

def Window.live (window : Window ρ) : Prop :=
  window.closed.isSome ∨ window.openMarker = true

instance (window : Window ρ) : Decidable window.live :=
  inferInstanceAs (Decidable (_ ∨ _))

/-! ## Performing steps -/

namespace Disk

@[simp] theorem performAll_nil (disk : Disk ρ) : disk.performAll [] = disk :=
  rfl

@[simp] theorem performAll_cons (disk : Disk ρ) (step : FsStep)
    (steps : List FsStep) :
    disk.performAll (step :: steps) = (disk.perform step).performAll steps :=
  rfl

@[simp] theorem performAll_append (disk : Disk ρ) (left right : List FsStep) :
    disk.performAll (left ++ right) =
      (disk.performAll left).performAll right := by
  simp [performAll]

/-- The step changes neither the manifest nor a marker. -/
def Quiet : FsStep → Prop
  | .makeWindowDir => True
  | .openLock => True
  | .writeTemporary => True
  | .makeSubdirectory _ => True
  | _ => False

theorem performAll_window (disk : Disk ρ) (hquiet : ∀ step ∈ steps, Quiet step) :
    (disk.performAll steps).window = disk.window := by
  induction steps generalizing disk with
  | nil => rfl
  | cons step rest ih =>
    have hstep := hquiet step List.mem_cons_self
    have hrest : ∀ other ∈ rest, Quiet other := fun other hother =>
      hquiet other (List.mem_cons_of_mem _ hother)
    rw [performAll_cons, ih _ hrest]
    cases step <;> first | rfl | exact hstep.elim

end Disk

theorem executed_quiet {α : Type} {call : FsCall α}
    (hquiet : ∀ step ∈ call.steps, Disk.Quiet step) (died : Option ℕ) :
    ∀ step ∈ call.executed died, Disk.Quiet step := by
  cases died with
  | none => exact hquiet
  | some count =>
    intro step hstep
    exact hquiet step (List.mem_of_mem_take hstep)

theorem enterLock_quiet : ∀ step ∈ enterLock, Disk.Quiet step := by
  simp [enterLock, Disk.Quiet]

theorem makeSubdirectories_quiet :
    ∀ step ∈ makeSubdirectories, Disk.Quiet step := by
  simp [makeSubdirectories, Disk.Quiet]

/-! ## Interrupted calls -/

variable {disk : Disk ρ} {spec : CollectionWindowSpec} {window : Window ρ}

theorem initializeWindow_quiet (spec : CollectionWindowSpec)
    (hmanifest : disk.window.manifest = some actual) (died : Option ℕ) :
    ∀ step ∈ (initializeWindow spec disk).executed died, Disk.Quiet step := by
  apply executed_quiet
  unfold initializeWindow
  rw [hmanifest]
  dsimp only
  split_ifs
  · intro step hstep
    rcases List.mem_append.mp hstep with hlock | hmake
    · exact enterLock_quiet step hlock
    · exact makeSubdirectories_quiet step hmake
  · exact enterLock_quiet

theorem initializeWindow_absent (hmanifest : disk.window.manifest = none) :
    initializeWindow spec disk = ⟨[.makeWindowDir, .openLock, .writeTemporary,
        .replaceManifest spec.toManifest, .touchOpen] ++ makeSubdirectories,
        .ok ()⟩ := by
  unfold initializeWindow
  rw [hmanifest]
  rfl

/-- How far `initialize` came on a window without manifest. -/
inductive Progress (spec : CollectionWindowSpec) (before : Disk ρ)
    (executed : List FsStep) : Prop
  | unpublished (hpublish : .replaceManifest spec.toManifest ∉ executed)
      (hwindow : (before.performAll executed).window = before.window)
      (hsubdirectories : (before.performAll executed).subdirectories =
        before.subdirectories)
  | severed (hpublish : .replaceManifest spec.toManifest ∈ executed)
      (htouch : .touchOpen ∉ executed)
      (hwindow : (before.performAll executed).window =
        { before.window with manifest := some spec.toManifest })
  | opened (htouch : .touchOpen ∈ executed)
      (hwindow : (before.performAll executed).window = { before.window with
          manifest := some spec.toManifest
          openMarker := true })

theorem initializeWindow_progress (hmanifest : disk.window.manifest = none)
    (died : Option ℕ) :
    Progress spec disk ((initializeWindow spec disk).executed died) := by
  have hopened : ∀ tail : List FsStep, (∀ step ∈ tail, Disk.Quiet step) →
      Progress spec disk ([.makeWindowDir, .openLock, .writeTemporary,
        .replaceManifest spec.toManifest, .touchOpen] ++ tail) := by
    intro tail hquiet
    refine .opened (by simp) ?_
    rw [Disk.performAll_append, Disk.performAll_window _ hquiet]
    rfl
  rw [initializeWindow_absent hmanifest]
  cases died with
  | none => exact hopened _ makeSubdirectories_quiet
  | some count =>
    match count with
    | 0 => exact .unpublished (by simp [FsCall.executed]) rfl rfl
    | 1 => exact .unpublished (by simp [FsCall.executed]) rfl rfl
    | 2 => exact .unpublished (by simp [FsCall.executed]) rfl rfl
    | 3 => exact .unpublished (by simp [FsCall.executed]) rfl rfl
    | 4 =>
      exact .severed (by simp [FsCall.executed])
        (by simp [FsCall.executed]) rfl
    | rest + 5 =>
      apply hopened
      intro step hstep
      exact makeSubdirectories_quiet step (List.mem_of_mem_take hstep)

theorem closeIfReady_window (spec : CollectionWindowSpec) (now : ℚ)
    (disk : Disk ρ) (died : Option ℕ) :
    let after := disk.performAll ((closeIfReady spec now disk).executed died)
    after.subdirectories = disk.subdirectories ∧
      (after.window = disk.window ∨
        disk.window.closeReady spec ∧
          after.window.manifest = disk.window.manifest ∧
          after.window.closed.isSome) := by
  have hlock : ∀ result : Option ClosedRecord,
      let after := disk.performAll
        ((FsCall.mk enterLock result).executed died)
      after.subdirectories = disk.subdirectories ∧
        after.window = disk.window := by
    intro result
    cases died with
    | none => exact ⟨rfl, rfl⟩
    | some count =>
      match count with
      | 0 => exact ⟨rfl, rfl⟩
      | 1 => exact ⟨rfl, rfl⟩
      | rest + 2 =>
        simp [FsCall.executed, enterLock, Disk.perform]
  unfold closeIfReady
  cases hclosed : disk.window.closed with
  | some record => exact ⟨(hlock _).1, .inl (hlock _).2⟩
  | none =>
    by_cases hready : disk.window.closeReady spec
    · simp only [hready, if_true]
      cases died with
      | none => exact ⟨rfl, .inr ⟨trivial, rfl, rfl⟩⟩
      | some count =>
        match count with
        | 0 => exact ⟨rfl, .inl rfl⟩
        | 1 => exact ⟨rfl, .inl rfl⟩
        | 2 => exact ⟨rfl, .inl rfl⟩
        | 3 => exact ⟨rfl, .inl rfl⟩
        | 4 => exact ⟨rfl, .inr ⟨trivial, rfl, rfl⟩⟩
        | rest + 5 =>
          simp [FsCall.executed, enterLock, Disk.perform]
    · simp only [hready, if_false]
      exact ⟨(hlock _).1, .inl (hlock _).2⟩

/-! ## Reachable disks -/

/-- Every published manifest came with an open or closed marker. -/
structure Healthy (spec : CollectionWindowSpec) (disk : Disk ρ) : Prop where
  untouched : disk.window.manifest = none →
    disk.window = .absent ∧ disk.subdirectories = []
  pinned : ∀ actual ∈ disk.window.manifest, actual = spec.toManifest
  live : disk.window.manifest ≠ none → disk.window.live

/-- The manifest is published but no marker will ever be written. -/
structure Dead (spec : CollectionWindowSpec) (window : Window ρ) : Prop where
  manifest : window.manifest = some spec.toManifest
  unmarked : window.openMarker = false
  unclosed : window.closed = none
  empty : ∀ index, ¬window.candidateComplete index

theorem Dead.not_live (hdead : Dead spec window) : ¬window.live:= by
  simp [Window.live, hdead.unmarked, hdead.unclosed]

theorem Dead.not_isOpen (hdead : Dead spec window) : ¬window.isOpen:= by
  simp [Window.isOpen, hdead.unmarked]

theorem Window.absent_empty (index : ℕ) :
    ¬(Window.absent : Window ρ).candidateComplete index := by
  simp [candidateComplete, absent]

theorem healthy_absent (spec : CollectionWindowSpec) :
    Healthy spec (Disk.absent : Disk ρ) := by
  constructor
  · exact fun _ => ⟨rfl, rfl⟩
  · simp [Disk.absent, Window.absent]
  · intro hmanifest
    exact absurd rfl hmanifest

theorem Healthy.of_window_eq (hhealthy : Healthy spec before)
    (hwindow : after.window = before.window)
    (hsubdirectories : before.window.manifest = none →
      after.subdirectories = before.subdirectories) :
    Healthy spec after := by
  constructor
  · intro hmanifest
    rw [hwindow] at hmanifest ⊢
    rw [hsubdirectories hmanifest]
    exact hhealthy.untouched hmanifest
  · rw [hwindow]
    exact hhealthy.pinned
  · rw [hwindow]
    exact hhealthy.live

theorem Healthy.of_live
    (hmanifest : disk.window.manifest = some spec.toManifest)
    (hlive : disk.window.live) : Healthy spec disk := by
  constructor
  · simp [hmanifest]
  · simp [hmanifest]
  · exact fun _ => hlive

theorem Healthy.manifest_eq (hhealthy : Healthy spec disk)
    (hsome : disk.window.manifest ≠ none) :
    disk.window.manifest = some spec.toManifest := by
  cases hmanifest : disk.window.manifest with
  | none => exact absurd hmanifest hsome
  | some actual => rw [hhealthy.pinned actual hmanifest]

theorem Healthy.initializing (hhealthy : Healthy spec disk) (died : Option ℕ) :
    let executed := (initializeWindow spec disk).executed died
    let after := disk.performAll executed
    let severed :=
      .replaceManifest spec.toManifest ∈ executed ∧ .touchOpen ∉ executed
    (severed → Dead spec after.window) ∧ (¬severed → Healthy spec after) := by
  intro executed after severed
  cases hmanifest : disk.window.manifest with
  | some actual =>
    have hquiet : ∀ step ∈ executed, Disk.Quiet step :=
      initializeWindow_quiet spec hmanifest died
    have hwindow : after.window = disk.window :=
      Disk.performAll_window disk hquiet
    constructor
    · exact fun hsevered => (hquiet _ hsevered.1).elim
    · exact fun _ => hhealthy.of_window_eq hwindow (by simp [hmanifest])
  | none =>
    have huntouched := hhealthy.untouched hmanifest
    cases initializeWindow_progress hmanifest died with
    | unpublished hpublish hwindow hsubdirectories =>
      constructor
      · exact fun hsevered => absurd hsevered.1 hpublish
      · exact fun _ => hhealthy.of_window_eq hwindow fun _ => hsubdirectories
    | severed hpublish htouch hwindow =>
      rw [huntouched.1] at hwindow
      constructor
      · intro _
        constructor
        · exact congrArg Window.manifest hwindow
        · exact congrArg Window.openMarker hwindow
        · exact congrArg Window.closed hwindow
        · intro index
          rw [show after.window = _ from hwindow]
          exact Window.absent_empty index
      · exact fun hsevered => absurd ⟨hpublish, htouch⟩ hsevered
    | opened htouch hwindow =>
      constructor
      · exact fun hsevered => absurd htouch hsevered.2
      · intro _
        apply Healthy.of_live
        · exact congrArg Window.manifest hwindow
        · exact .inr (congrArg Window.openMarker hwindow)

theorem Healthy.closing
    (hhealthy : Healthy spec disk) (now : ℚ) (died : Option ℕ) :
    Healthy spec
      (disk.performAll ((closeIfReady spec now disk).executed died)) := by
  have hclose := closeIfReady_window spec now disk died
  rcases hclose.2 with hwindow | ⟨hready, hmanifest, hclosed⟩
  · exact hhealthy.of_window_eq hwindow fun _ => hclose.1
  · have hsome : disk.window.manifest ≠ none := by
      intro hnone
      rw [(hhealthy.untouched hnone).1] at hready
      exact Window.not_closeReady_of_empty spec Window.absent_empty hready
    apply Healthy.of_live
    · rw [hmanifest, hhealthy.manifest_eq hsome]
    · exact .inl hclosed

theorem Healthy.operate {operation : Operation ρ}
    (hhealthy : Healthy spec disk) (hsetUp : disk.setUp)
    (hstep : operation.apply spec disk.window = (reply, window)) :
    Healthy spec { disk with window := window } := by
  have heffect := Operation.Effect.of_apply hstep
  have hsome : disk.window.manifest ≠ none := by
    intro hnone
    have hleases := hsetUp .leases (by decide)
    rw [(hhealthy.untouched hnone).2] at hleases
    simp at hleases
  apply Healthy.of_live
  · exact heffect.manifest.trans (hhealthy.manifest_eq hsome)
  · rcases heffect.markers with ⟨hopen, hclosed⟩ | ⟨_, hclosed⟩
    · have hlive := hhealthy.live hsome
      unfold Window.live at hlive ⊢
      rwa [hopen, hclosed]
    · exact .inl hclosed

theorem Dead.initializing (hdead : Dead spec disk.window) (died : Option ℕ) :
    Dead spec (disk.performAll
      ((initializeWindow spec disk).executed died)).window := by
  have hquiet := initializeWindow_quiet spec hdead.manifest died
  rwa [Disk.performAll_window disk hquiet]

theorem Dead.closing
    (hdead : Dead spec disk.window) (now : ℚ) (died : Option ℕ) :
    Dead spec (disk.performAll
      ((closeIfReady spec now disk).executed died)).window := by
  have hnotReady := Window.not_closeReady_of_empty spec hdead.empty
  have hclose := (closeIfReady_window spec now disk died).2
  rcases hclose with hwindow | hready
  · rwa [hwindow]
  · exact absurd hready.1 hnotReady

theorem Dead.operate {operation : Operation ρ} (hdead : Dead spec before)
    (hstep : operation.apply spec before = (reply, after)) :
    Dead spec after := by
  have heffect := Operation.Effect.of_apply hstep
  have hnotReady := Window.not_closeReady_of_empty spec hdead.empty
  rcases heffect.markers with ⟨hopen, hclosed⟩ | ⟨hready, _⟩
  · constructor
    · exact heffect.manifest.trans hdead.manifest
    · rw [hopen, hdead.unmarked]
    · rw [hclosed, hdead.unclosed]
    · intro index
      rw [heffect.complete_iff_of_not_open hdead.not_isOpen index]
      exact hdead.empty index
  · exact absurd hready hnotReady

theorem lifetime_step_cases
    (hstep : (lifetime ρ spec).step before action = some (reply, after)) :
    (∃ died, action = .initializing died ∧ after = before.performAll
      ((initializeWindow spec before).executed died)) ∨
    (∃ now died, action = .closing now died ∧ after = before.performAll
      ((closeIfReady spec now before).executed died)) ∨
    (∃ operation answer window, action = .operate operation ∧
      before.setUp ∧ operation.apply spec before.window = (answer, window) ∧
      after = { before with window := window }) := by
  cases action with
  | initializing died =>
    simp only [lifetime, Action.apply, Option.some.injEq,
      Prod.mk.injEq] at hstep
    exact .inl ⟨died, rfl, hstep.2.symm⟩
  | closing now died =>
    simp only [lifetime, Action.apply, Option.some.injEq,
      Prod.mk.injEq] at hstep
    exact .inr (.inl ⟨now, died, rfl, hstep.2.symm⟩)
  | operate operation =>
    simp only [lifetime, Action.apply] at hstep
    split_ifs at hstep with hsetUp
    simp only [Option.some.injEq, Prod.mk.injEq] at hstep
    exact .inr (.inr ⟨operation, _, _, rfl, hsetUp, rfl, hstep.2.symm⟩)

theorem Healthy.step (hhealthy : Healthy spec before)
    (hstep : (lifetime ρ spec).step before action = some (reply, after)) :
    (severs spec ⟨before, action, reply, after⟩ → Dead spec after.window) ∧
    (¬severs spec ⟨before, action, reply, after⟩ → Healthy spec after) := by
  rcases lifetime_step_cases hstep with ⟨died, rfl, rfl⟩ |
    ⟨now, died, rfl, rfl⟩ | ⟨operation, answer, window, rfl, hsetUp, hop, rfl⟩
  · exact hhealthy.initializing died
  · exact ⟨fun hsevered => hsevered.elim, fun _ => hhealthy.closing now died⟩
  · exact ⟨fun hsevered => hsevered.elim, fun _ => hhealthy.operate hsetUp hop⟩

theorem Dead.step (hdead : Dead spec before.window)
    (hstep : (lifetime ρ spec).step before action = some (reply, after)) :
    Dead spec after.window := by
  rcases lifetime_step_cases hstep with ⟨died, rfl, rfl⟩ |
    ⟨now, died, rfl, rfl⟩ | ⟨operation, answer, window, rfl, hsetUp, hop, rfl⟩
  · exact hdead.initializing died
  · exact hdead.closing now died
  · exact hdead.operate hop

/-- A history leaves a healthy disk, or one of its calls was severed and the
window is dead. -/
theorem History.healthy_or_dead (hhistory : History spec .absent events disk) :
    (∀ event ∈ events, ¬severs spec event) ∧ Healthy spec disk ∨
      (∃ event ∈ events, severs spec event) ∧ Dead spec disk.window := by
  induction hhistory with
  | nil => exact .inl ⟨by simp, healthy_absent spec⟩
  | @snoc state next prior action reply _ hstep ih =>
    rcases ih with ⟨hnone, hhealthy⟩ | ⟨⟨event, hevent, hsevered⟩, hdead⟩
    · by_cases hlast : severs spec ⟨state, action, reply, next⟩
      · right
        constructor
        · exact ⟨_, List.mem_append_right _ List.mem_cons_self, hlast⟩
        · exact (hhealthy.step hstep).1 hlast
      · left
        constructor
        · intro event hevent
          rcases List.mem_append.mp hevent with hprior | hsingle
          · exact hnone event hprior
          · rwa [List.mem_singleton.mp hsingle]
        · exact (hhealthy.step hstep).2 hlast
    · right
      constructor
      · exact ⟨event, List.mem_append_left _ hevent, hsevered⟩
      · exact hdead.step hstep

theorem History.initializeWindow_ok
    (hhistory : History spec .absent events disk) :
    (initializeWindow spec disk).result = .ok () := by
  have hpinned : ∀ actual ∈ disk.window.manifest,
      actual = spec.toManifest := by
    rcases hhistory.healthy_or_dead with ⟨_, hhealthy⟩ | ⟨_, hdead⟩
    · exact hhealthy.pinned
    · simp [hdead.manifest]
  unfold initializeWindow
  cases hmanifest : disk.window.manifest with
  | none => rfl
  | some actual => simp [hpinned actual hmanifest]

theorem initializeWindow_not_severed (spec : CollectionWindowSpec)
    (disk : Disk ρ) :
    let executed := (initializeWindow spec disk).executed none
    ¬(.replaceManifest spec.toManifest ∈ executed ∧ .touchOpen ∉ executed) := by
  intro executed hsevered
  cases hmanifest : disk.window.manifest with
  | some actual =>
    exact initializeWindow_quiet spec hmanifest none _ hsevered.1
  | none =>
    apply hsevered.2
    simp [executed, FsCall.executed, initializeWindow_absent hmanifest]

theorem initializeWindow_manifest (spec : CollectionWindowSpec)
    (disk : Disk ρ) :
    (disk.performAll
      ((initializeWindow spec disk).executed none)).window.manifest ≠ none := by
  cases hmanifest : disk.window.manifest with
  | some actual =>
    have hquiet := initializeWindow_quiet spec hmanifest none
    rw [Disk.performAll_window disk hquiet, hmanifest]
    simp
  | none =>
    rw [initializeWindow_absent hmanifest, FsCall.executed,
      Disk.performAll_append,
      Disk.performAll_window _ makeSubdirectories_quiet]
    simp [Disk.perform]

/-! ## Live windows -/

theorem normalizeCandidateIds_ne_windowClosed (maximum : ℕ)
    (names : List String) :
    Window.normalizeCandidateIds maximum names ≠ .error .windowClosed := by
  induction names with
  | nil => simp [Window.normalizeCandidateIds]
  | cons name rest ih =>
    unfold Window.normalizeCandidateIds
    split
    · simp
    next index _ =>
      by_cases hindex : index < maximum
      · cases hrest : Window.normalizeCandidateIds maximum rest with
        | error error =>
          rw [hrest] at ih
          simpa [require, hindex, bind, Except.bind] using ih
        | ok indices => simp [require, hindex, bind, Except.bind]
      · simp [require, hindex, bind, Except.bind]

theorem Operation.ne_windowClosed_of_isOpen (hopen : window.isOpen) (operation : Operation ρ) :
    (operation.apply spec window).1 ≠ .raised .windowClosed := by
  cases operation with
  | claim assignments ownerId timeout preferred now token =>
    simp only [apply, Window.claimCandidate, hopen, not_true_eq_false,
      if_false]
    split_ifs <;> simp
  | renew lease timeout now =>
    simp only [apply, Window.renewCandidateLease]
    split_ifs <;> simp
  | release lease =>
    simp only [apply, Window.releaseCandidateLease]
    split_ifs <;> simp
  | abandon ownerId now =>
    simp only [apply, Window.abandonOwnerLeases]
    split_ifs <;> simp
  | skip candidateIds reason now =>
    simp only [apply, Window.skipWindowCandidates, hopen,
      not_true_eq_false, if_false]
    by_cases hempty : candidateIds = [] ∨ reason = ""
    · simp [hempty]
    simp only [hempty, if_false]
    cases window.manifest with
    | none => simp
    | some manifest =>
      have hnames := normalizeCandidateIds_ne_windowClosed
        manifest.maxCandidateGroups candidateIds
      cases hresult : Window.normalizeCandidateIds
          manifest.maxCandidateGroups candidateIds with
      | error error =>
        rw [hresult] at hnames
        simp only [hresult]
        simpa using hnames
      | ok indices =>
        simp only [hresult]
        split_ifs <;> simp
  | recordIntegrityFailure assignment diagnostics lease now =>
    simp only [apply, Window.recordIntegrityFailure]
    split_ifs <;> simp
  | commit request =>
    simp only [apply, Window.commitGroup, hopen, not_true_eq_false, if_false]
    split_ifs <;> simp
  | closeIfReady now =>
    simp only [apply, Window.closeIfReady]
    repeat' split
    all_goals simp

/-- The window is closed, or it is marked open and claims, commits and skips
are not refused as closed. -/
def Window.usable (spec : CollectionWindowSpec) (window : Window ρ) : Prop :=
  window.closed.isSome ∨ window.openMarker = true ∧ ∀ operation : Operation ρ,
        (operation.apply spec window).1 ≠ .raised .windowClosed

theorem Window.usable_iff_live : window.usable spec ↔ window.live := by
  unfold usable live
  by_cases hclosed : window.closed.isSome
  · simp [hclosed]
  · have hnone : window.closed = none := by simpa using hclosed
    simp only [hclosed, Bool.false_eq_true, false_or]
    constructor
    · exact fun husable => husable.1
    · intro hopen
      exact ⟨hopen, Operation.ne_windowClosed_of_isOpen ⟨hnone, hopen⟩⟩

/-- A restart makes the window usable exactly if no earlier call of
`initialize` died between publishing the manifest and touching OPEN. -/
theorem restart_usable_iff {spec : CollectionWindowSpec}
    {events : List (LifeEvent ρ)} {disk : Disk ρ}
    (hhistory : History spec .absent events disk) :
    (initializeWindow spec disk).result = .ok () ∧
      ((disk.performAll (initializeWindow spec disk).steps).window.usable
          spec ↔ ∀ event ∈ events, ¬severs spec event) := by
  refine ⟨hhistory.initializeWindow_ok, ?_⟩
  rw [Window.usable_iff_live]
  rcases hhistory.healthy_or_dead with ⟨hnone, hhealthy⟩ | ⟨hsevered, hdead⟩
  · have hafter := (hhealthy.initializing none).2
      (initializeWindow_not_severed spec disk)
    have hlive := hafter.live (initializeWindow_manifest spec disk)
    exact ⟨fun _ => hnone, fun _ => hlive⟩
  · have hafter := hdead.initializing none
    constructor
    · intro hlive
      exact absurd hlive hafter.not_live
    · intro hnone
      rcases hsevered with ⟨event, hevent, hcut⟩
      exact absurd hcut (hnone event hevent)

/-- The empty directory after a first `initialize` that dies. -/
def interruptedDisk (count : ℕ) : Disk Unit := let disk : Disk Unit := .absent
  disk.performAll ((initializeWindow pairSpec disk).executed (some count))

def interruptedHistory (count : ℕ) : List (LifeEvent Unit) :=
  [⟨.absent, .initializing (some count), none, interruptedDisk count⟩]

theorem interruptedHistory_run (count : ℕ) :
    History pairSpec .absent (interruptedHistory count)
      (interruptedDisk count) :=
  Run.single rfl

def restartedWindow (count : ℕ) : Window Unit :=
  ((interruptedDisk count).performAll
    (initializeWindow pairSpec (interruptedDisk count)).steps).window

/-- After a death between manifest and OPEN, the restarted call succeeds on a
window that is neither closed nor usable. -/
theorem severed_window_unusable :
    History pairSpec .absent (interruptedHistory 4) (interruptedDisk 4) ∧
      (initializeWindow pairSpec (interruptedDisk 4)).result = .ok () ∧
      ¬(restartedWindow 4).usable pairSpec ∧
      ((restartedWindow 4).claimCandidate pairSpec [] "a" 10 none 0 "t").1 =
        .raised .windowClosed ∧
      ((restartedWindow 4).skipWindowCandidates ["candidate_0000"] "r" 0).1 =
        .raised .windowClosed ∧
      ((restartedWindow 4).closeIfReady pairSpec 0).1 = .closeState none := by
  have hhistory := interruptedHistory_run 4
  refine ⟨hhistory, hhistory.initializeWindow_ok, ?_, ?_, ?_, ?_⟩
  · rw [Window.usable_iff_live]
    decide +kernel
  · decide +kernel
  · decide +kernel
  · decide +kernel

/-- One step later the marker is there and the restart opens the window. -/
theorem marked_window_usable :
    (initializeWindow pairSpec (interruptedDisk 5)).result = .ok () ∧
      (restartedWindow 5).usable pairSpec := by
  have hrestart := restart_usable_iff (interruptedHistory_run 5)
  constructor
  · exact hrestart.1
  · apply hrestart.2.mpr
    decide +kernel

end CollectionStore
end VerlVla
