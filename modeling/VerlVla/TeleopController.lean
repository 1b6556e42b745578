import VerlVla.BaseEnv

/-!
# The teleop controller of one environment

An input device latches a record control when one of its keys goes down.  Every
action that passes through the controller pops the controls of all devices, so
a command is popped exactly once, by the first action after the key.
-/

namespace VerlVla
namespace BaseEnv

variable {n d : ℕ} {A O : Type}

/-! ## Input devices -/

inductive RecordCommand
  | manualReward
  | restartEpisode
  | stopEpisode
deriving DecidableEq

structure RecordControl where
  manualReward : Bool
  restartEpisode : Bool
  stopEpisode : Bool
deriving DecidableEq

namespace RecordControl

def clear : RecordControl where
  manualReward := false
  restartEpisode := false
  stopEpisode := false

def get (control : RecordControl) : RecordCommand → Bool
  | .manualReward => control.manualReward
  | .restartEpisode => control.restartEpisode
  | .stopEpisode => control.stopEpisode

def set (control : RecordControl) : RecordCommand → RecordControl
  | .manualReward => { control with manualReward := true }
  | .restartEpisode => { control with restartEpisode := true }
  | .stopEpisode => { control with stopEpisode := true }

def or (control other : RecordControl) : RecordControl where
  manualReward := control.manualReward || other.manualReward
  restartEpisode := control.restartEpisode || other.restartEpisode
  stopEpisode := control.stopEpisode || other.stopEpisode

@[simp] theorem get_clear (command : RecordCommand) :
    clear.get command = false := by
  cases command <;> rfl

@[simp] theorem get_or (control other : RecordControl)
    (command : RecordCommand) :
    (control.or other).get command =
      (control.get command || other.get command) := by
  cases command <;> rfl

@[simp] theorem get_set (control : RecordControl)
    (pressed command : RecordCommand) :
    (control.set pressed).get command =
      (control.get command || pressed == command) := by
  cases pressed <;> cases command <;> simp [set, get]

end RecordControl

/-- A device with its strategy: the latched controls, and how it overrides an
action while it intervenes. -/
structure InputDevice (A : Type) where
  recordControl : RecordControl
  override : Option (A → A)

inductive DeviceEvent (A : Type)
  | keydown (command : RecordCommand)
  | intervene (override : A → A)
  | release

def DeviceEvent.presses (command : RecordCommand) : DeviceEvent A → Bool
  | .keydown pressed => pressed == command
  | .intervene _ => false
  | .release => false

def InputDevice.handleEvent (device : InputDevice A) :
    DeviceEvent A → InputDevice A
  | .keydown command =>
    { device with recordControl := device.recordControl.set command }
  | .intervene override => { device with override := some override }
  | .release => { device with override := none }

def InputDevice.popRecordControl (device : InputDevice A) :
    RecordControl × InputDevice A :=
  (device.recordControl, { device with recordControl := .clear })

/-! ## The controller -/

structure TeleopController (d : ℕ) (A : Type) where
  inputDevices : Fin d → InputDevice A

def TeleopCommand.pops (command : TeleopCommand A) : RecordCommand → Bool
  | .manualReward => command.manualReward
  | .restartEpisode => command.restartEpisode
  | .stopEpisode => command.stopEpisode

namespace TeleopController

def isIntervening (controller : TeleopController d A) : Bool :=
  (List.finRange d).any fun i => (controller.inputDevices i).override.isSome

def overriddenAction (controller : TeleopController d A) (action : A) : A :=
  (List.finRange d).foldl (fun action i =>
      ((controller.inputDevices i).override.getD id) action) action

def popRecordControl (controller : TeleopController d A) :
    RecordControl × TeleopController d A :=
  ((List.finRange d).foldl (fun control i =>
        control.or (controller.inputDevices i).popRecordControl.1) .clear,
    ⟨fun i => (controller.inputDevices i).popRecordControl.2⟩)

def applyAction (controller : TeleopController d A) (action : A) :
    TeleopCommand A × TeleopController d A :=
  ({ intervention := if controller.isIntervening then
          some (controller.overriddenAction action)
        else none
     manualReward := controller.popRecordControl.1.manualReward
     restartEpisode := controller.popRecordControl.1.restartEpisode
     stopEpisode := controller.popRecordControl.1.stopEpisode },
    controller.popRecordControl.2)

def handleEvent (controller : TeleopController d A)
    (event : Fin d × DeviceEvent A) : TeleopController d A where
  inputDevices i :=
    if i = event.1 then (controller.inputDevices i).handleEvent event.2
    else controller.inputDevices i

def pending (controller : TeleopController d A) (command : RecordCommand) :
    Bool :=
  (List.finRange d).any fun i =>
    (controller.inputDevices i).recordControl.get command

/-- What happens at the devices before an action passes. -/
structure Round (d : ℕ) (A : Type) where
  events : List (Fin d × DeviceEvent A)
  action : A

def Round.presses (round : Round d A) (command : RecordCommand) : Bool :=
  round.events.any fun event => event.2.presses command

def applyActions (controller : TeleopController d A) :
    List (Round d A) → List (TeleopCommand A)
  | [] => []
  | round :: rounds =>
    let applied := (round.events.foldl handleEvent controller).applyAction
      round.action
    applied.1 :: applied.2.applyActions rounds

/-! ## Every command is popped once -/

theorem get_foldl_or (controls : Fin d → RecordControl)
    (devices : List (Fin d)) (control : RecordControl)
    (command : RecordCommand) :
    (devices.foldl (fun control i => control.or (controls i)) control).get
        command =
      (control.get command ||
        devices.any fun i => (controls i).get command) := by
  induction devices generalizing control with
  | nil => simp
  | cons i devices ih =>
    rw [List.foldl_cons, ih, RecordControl.get_or, List.any_cons,
      Bool.or_assoc]

theorem applyAction_pops (controller : TeleopController d A) (action : A)
    (command : RecordCommand) :
    (controller.applyAction action).1.pops command =
      controller.pending command := by
  have hfold := get_foldl_or
    (fun i => (controller.inputDevices i).recordControl) (List.finRange d)
    .clear command
  rw [RecordControl.get_clear, Bool.false_or] at hfold
  rw [pending, ← hfold]
  cases command <;> rfl

theorem pending_applyAction (controller : TeleopController d A) (action : A)
    (command : RecordCommand) :
    (controller.applyAction action).2.pending command = false := by
  simp [applyAction, popRecordControl, InputDevice.popRecordControl, pending]

theorem recordControl_handleEvent (device : InputDevice A)
    (event : DeviceEvent A) (command : RecordCommand) :
    (device.handleEvent event).recordControl.get command =
      (device.recordControl.get command || event.presses command) := by
  cases event with
  | keydown pressed => exact RecordControl.get_set ..
  | intervene override | release => exact (Bool.or_false _).symm

theorem pending_handleEvent (controller : TeleopController d A)
    (event : Fin d × DeviceEvent A) (command : RecordCommand) :
    (controller.handleEvent event).pending command =
      (controller.pending command || event.2.presses command) := by
  obtain ⟨device, event⟩ := event
  rw [Bool.eq_iff_iff]
  simp only [pending, handleEvent, List.any_eq_true, List.mem_finRange,
    true_and, Bool.or_eq_true]
  constructor
  · rintro ⟨i, hi⟩
    by_cases hsame : i = device
    · rw [if_pos hsame, recordControl_handleEvent, Bool.or_eq_true] at hi
      rcases hi with hbefore | hpressed
      · exact .inl ⟨i, hbefore⟩
      · exact .inr hpressed
    · rw [if_neg hsame] at hi
      exact .inl ⟨i, hi⟩
  · rintro (⟨i, hi⟩ | hpressed)
    · refine ⟨i, ?_⟩
      by_cases hsame : i = device
      · rw [if_pos hsame, recordControl_handleEvent, hi, Bool.true_or]
      · rw [if_neg hsame, hi]
    · refine ⟨device, ?_⟩
      rw [if_pos rfl, recordControl_handleEvent, hpressed, Bool.or_true]

theorem pending_handleEvents (controller : TeleopController d A)
    (events : List (Fin d × DeviceEvent A)) (command : RecordCommand) :
    (events.foldl handleEvent controller).pending command =
      (controller.pending command ||
        events.any fun event => event.2.presses command) := by
  induction events generalizing controller with
  | nil => simp
  | cons event events ih =>
    rw [List.foldl_cons, ih, pending_handleEvent, List.any_cons, Bool.or_assoc]

theorem applyActions_pops (controller : TeleopController d A)
    (rounds : List (Round d A)) (command : RecordCommand)
    (hclear : controller.pending command = false) :
    (controller.applyActions rounds).map (·.pops command) =
      rounds.map (·.presses command) := by
  induction rounds generalizing controller with
  | nil => rfl
  | cons round rounds ih =>
    simp only [applyActions, List.map_cons]
    rw [applyAction_pops, pending_handleEvents, hclear, Bool.false_or,
      ih _ (pending_applyAction ..)]
    rfl

theorem applyActions_pops_second_key :
    ((⟨fun _ => ⟨.clear, none⟩⟩ : TeleopController 2 ℕ).applyActions
      [⟨[], 4⟩, ⟨[(1, .keydown .stopEpisode), (0, .intervene (· + 1))], 5⟩,
        ⟨[], 6⟩]).map (·.pops .stopEpisode) = [false, true, false] :=
  applyActions_pops _ _ .stopEpisode rfl

end TeleopController

/-- Every controller pops its controls, whether or not it intervenes. -/
def applyTeleopAction (teleops : Fin n → TeleopController d A)
    (action : Fin n → A) :
    (Fin n → TeleopCommand A) × (Fin n → TeleopController d A) :=
  (fun e => ((teleops e).applyAction (action e)).1,
    fun e => ((teleops e).applyAction (action e)).2)

theorem applyTeleopAction_pops (teleops : Fin n → TeleopController d A)
    (action : Fin n → A) (e : Fin n) (command : RecordCommand) :
    ((applyTeleopAction teleops action).1 e).pops command =
      (teleops e).pending command :=
  TeleopController.applyAction_pops ..

end BaseEnv
end VerlVla
