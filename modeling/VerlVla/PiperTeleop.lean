import Mathlib.Data.List.Induction
import VerlVla.RigidMotions

/-!
# Piper arms behind an XR controller

Pressing the intervention button hands an arm over to a controller and takes
it back.  The strategy turns the controller poses of successive frames into
increments, and the backend adds these to a target of its own.  Frames repeat,
poses are missing, the policy moves the arms in between and an episode ends
while a hand is active.
-/

namespace VerlVla
namespace PiperTeleop

variable {ι G V J : Type} [Group G] [AddCommGroup V]

/-! ## Configuration, readings and frames -/

/-- The arm behind its driver; the solver starts from the joints it is
given. -/
structure ArmModel (G V J : Type) where
  forwardKinematics : J → Pose G V
  solve : J → Pose G V → J
  clipToLimits : J → J

structure TeleopSetup (ι G V J : Type) [Group G] [AddCommGroup V] where
  vectors : RotationVectors G V
  arm : ι → ArmModel G V J
  positionScale : ℚ
  rotationScale : ℚ
  buttonThreshold : ℚ
  gripperCloseWidth : ℚ
  gripperOpenWidth : ℚ
  webxrToRobot : Pose G V
  controllerAlignment : Pose G V
  robotAlignment : Pose G V

structure ArmFeedback (G V J : Type) where
  joints : J
  gripper : ℚ
  tcp : Pose G V

/-- One controller of a frame: the values of its buttons, and its grip or
target ray pose if there is a valid one. -/
structure XrController (G V : Type) where
  intervention : ℚ
  trigger : ℚ
  pose : Option (Pose G V)

structure XrFrame (ι G V : Type) where
  timestamp : ℚ
  controllers : Option (ι → Option (XrController G V))

def controllerOf (frame : Option (XrFrame ι G V)) (i : ι) :
    Option (XrController G V) :=
  (frame.bind (·.controllers)).bind (· i)

/-- A frame is read once: its timestamp is kept. -/
def readFrame (timestamp : Option ℚ) :
    Option (XrFrame ι G V) → Option ℚ × Option (XrFrame ι G V)
  | none => (timestamp, none)
  | some frame =>
    if timestamp = some frame.timestamp then (timestamp, none)
    else (some frame.timestamp, some frame)

/-! ## The strategy -/

structure TrackedHand (G V : Type) where
  startPose : Pose G V
  previousRelativePose : Pose G V

/-- An active hand has the rotation of its arm at the activation; its first
tracked pose sets the other two poses together. -/
structure Activation (G V : Type) where
  robotZeroRotation : G
  tracked : Option (TrackedHand G V)

structure HandState (G V : Type) where
  activation : Option (Activation G V)
  interventionDown : Bool
  previousTrigger : Option ℚ

structure ArmRuntime (G V J : Type) where
  targetJoints : Option J
  targetPose : Option (Pose G V)
  targetGripper : Option ℚ

structure ArmState (G V J : Type) where
  hand : HandState G V
  runtime : ArmRuntime G V J

def HandState.initial : HandState G V where
  activation := none
  interventionDown := false
  previousTrigger := none

def ArmRuntime.sync (feedback : ArmFeedback G V J) : ArmRuntime G V J where
  targetJoints := some feedback.joints
  targetPose := some feedback.tcp
  targetGripper := some feedback.gripper

variable (setup : TeleopSetup ι G V J)

/-- A press toggles the arm; an activation anchors its target. -/
def updateHandButtons (controller : XrController G V)
    (feedback : ArmFeedback G V J) (arm : ArmState G V J) :
    ArmState G V J :=
  let down : Bool := setup.buttonThreshold ≤ controller.intervention
  if down && !arm.hand.interventionDown then
    if arm.hand.activation.isSome then
      { arm with hand := { arm.hand with
          activation := none
          interventionDown := down } }
    else
      { hand := { arm.hand with
          activation := some ⟨feedback.tcp.rotation, none⟩
          interventionDown := down }
        runtime := .sync feedback }
  else { arm with hand := { arm.hand with interventionDown := down } }

/-- What a frame asks of one arm. -/
structure ArmDelta (V : Type) where
  pose : PoseDelta V
  gripper : ℚ

def ArmDelta.zero : ArmDelta V where
  pose := .zero
  gripper := 0

def clampTo (low high value : ℚ) : ℚ := min (max value low) high

variable [Module ℚ V] [DistribMulAction G V]

def controllerPose (pose : Pose G V) : Pose G V :=
  ((setup.webxrToRobot.comp pose).comp setup.controllerAlignment).comp
    setup.robotAlignment

def relativePose (start pose : Pose G V) : Pose G V :=
  setup.vectors.scale setup.positionScale setup.rotationScale
    (start.inv.comp pose)

/-- Follow a tracked controller pose. -/
def trackPose (activation : Activation G V) (pose : Pose G V) :
    Activation G V × PoseDelta V :=
  let tracked := activation.tracked.getD ⟨pose, .still⟩
  let relative := relativePose setup tracked.startPose pose
  ({ activation with tracked := some ⟨tracked.startPose, relative⟩ },
    setup.vectors.between activation.robotZeroRotation relative
      tracked.previousRelativePose)

def trackHand (controller : XrController G V) (pose : Pose G V)
    (hand : HandState G V) : HandState G V × ArmDelta V :=
  let followed := hand.activation.map fun activation =>
    trackPose setup activation pose
  let trigger := clampTo 0 1 controller.trigger
  ({ hand with
      activation := followed.map (·.1)
      previousTrigger := some trigger },
    { pose := (followed.map (·.2)).getD .zero
      gripper := (hand.previousTrigger.map fun previous =>
        (trigger - previous) * setup.gripperOpenWidth).getD 0 })

def armFromFrame (controller : Option (XrController G V))
    (feedback : ArmFeedback G V J) (arm : ArmState G V J) :
    ArmState G V J × ArmDelta V :=
  match controller with
  | none => (arm, .zero)
  | some controller =>
    let pressed := updateHandButtons setup controller feedback arm
    match controller.pose with
    | none => (pressed, .zero)
    | some pose =>
      let tracked := trackHand setup controller (controllerPose setup pose)
        pressed.hand
      ({ pressed with hand := tracked.1 }, tracked.2)

/-! ## The backend -/

structure ArmAction (J : Type) where
  joints : J
  gripper : ℚ

def taskDeltaToAction [DecidableEq V] (model : ArmModel G V J)
    (feedback : ArmFeedback G V J) (delta : ArmDelta V)
    (runtime : ArmRuntime G V J) : ArmRuntime G V J × ArmAction J :=
  let base := runtime.targetPose.getD (model.forwardKinematics feedback.joints)
  let candidate := setup.vectors.apply delta.pose base
  ({ runtime with targetPose := some candidate },
    { joints := if delta.pose ≠ .zero then
          model.solve feedback.joints candidate
        else runtime.targetJoints.getD feedback.joints
      gripper := clampTo setup.gripperCloseWidth setup.gripperOpenWidth
        (runtime.targetGripper.getD feedback.gripper + delta.gripper) })

/-- The runtime keeps the action that it executes. -/
def executeArm (model : ArmModel G V J) (action : ArmAction J)
    (runtime : ArmRuntime G V J) : ArmRuntime G V J :=
  { runtime with
    targetJoints := some (model.clipToLimits action.joints)
    targetGripper := some (clampTo setup.gripperCloseWidth
      setup.gripperOpenWidth action.gripper) }

/-! ## Calls -/

structure TeleopState (ι G V J : Type) where
  timestamp : Option ℚ
  arms : ι → ArmState G V J

def resetState (feedback : ι → ArmFeedback G V J) : TeleopState ι G V J where
  timestamp := none
  arms := fun i => ⟨.initial, .sync (feedback i)⟩

def updateButtons (frame : Option (XrFrame ι G V))
    (feedback : ι → ArmFeedback G V J) (state : TeleopState ι G V J) :
    TeleopState ι G V J :=
  { state with arms := fun i =>
      match controllerOf frame i with
      | none => state.arms i
      | some controller =>
        updateHandButtons setup controller (feedback i) (state.arms i) }

def actionFromFrame [DecidableEq V] (frame : Option (XrFrame ι G V))
    (feedback : ι → ArmFeedback G V J) (state : TeleopState ι G V J) :
    TeleopState ι G V J × (ι → ArmAction J) :=
  let read := readFrame state.timestamp frame
  let moved := fun i => armFromFrame setup (controllerOf read.2 i)
    (feedback i) (state.arms i)
  let acted := fun i => taskDeltaToAction setup (setup.arm i) (feedback i)
    (moved i).2 (moved i).1.runtime
  ({ timestamp := read.1
     arms := fun i => { (moved i).1 with runtime := (acted i).1 } },
    fun i => (acted i).2)

/-- The environment resets; it resets its arms alone at the end of an episode;
it asks whether somebody intervenes, asks for the action of the latest frame
and executes an action. -/
inductive TeleopEvent (ι G V J : Type)
  | reset (feedback : ι → ArmFeedback G V J)
  | autoReset (feedback : ι → ArmFeedback G V J)
  | poll (frame : Option (XrFrame ι G V)) (feedback : ι → ArmFeedback G V J)
  | act (frame : Option (XrFrame ι G V)) (feedback : ι → ArmFeedback G V J)
  | execute (action : ι → ArmAction J)

def nextState [DecidableEq V] (state : TeleopState ι G V J) :
    TeleopEvent ι G V J → TeleopState ι G V J
  | .reset feedback => resetState feedback
  | .autoReset feedback => { state with
      arms := fun i => { state.arms i with runtime := .sync (feedback i) } }
  | .poll frame feedback => updateButtons setup frame feedback state
  | .act frame feedback => (actionFromFrame setup frame feedback state).1
  | .execute action => { state with
      arms := fun i => { state.arms i with
        runtime := executeArm setup (setup.arm i) (action i)
          (state.arms i).runtime } }

/-! ## Where a hand is -/

/-- An active arm: its TCP pose at the activation; its TCP pose and the motion
of the hand at the last reset since; the first and the last controller pose
that were seen since. -/
structure Following (G V : Type) where
  anchor : Pose G V
  restarted : Option (Pose G V × Pose G V)
  seen : Option (Pose G V × Pose G V)

structure HandView (G V : Type) where
  down : Bool
  following : Option (Following G V)

namespace Following

variable (following : Following G V)

/-- The scaled motion of the hand since the activation. -/
def motion : Pose G V :=
  (following.seen.map fun seen =>
    relativePose setup seen.1 seen.2).getD .still

def targetAt (motion : Pose G V) : Pose G V :=
  match following.restarted with
  | none => following.anchor.comp motion
  | some (tcp, before) =>
    Pose.shift following.anchor.rotation tcp motion before

def target : Pose G V := following.targetAt (following.motion setup)

def see (pose : Pose G V) : Following G V :=
  { following with
    seen := some ((following.seen.map (·.1)).getD pose, pose) }

def restart (tcp : Pose G V) : Following G V :=
  { following with restarted := some (tcp, following.motion setup) }

/-- What the strategy remembers of it. -/
def activation : Activation G V where
  robotZeroRotation := following.anchor.rotation
  tracked := following.seen.map fun seen =>
    ⟨seen.1, relativePose setup seen.1 seen.2⟩

omit [Module ℚ V] in
theorem apply_between_targetAt (relative previous : Pose G V) :
    setup.vectors.apply (setup.vectors.between following.anchor.rotation
        relative previous) (following.targetAt previous) =
      following.targetAt relative := by
  unfold targetAt
  cases following.restarted with
  | none => exact setup.vectors.apply_between _ _ _
  | some restarted => exact setup.vectors.apply_between_shift _ _ _ _ _

theorem restart_target (tcp : Pose G V) :
    (following.restart setup tcp).target setup = tcp :=
  Pose.shift_self _ _ _

theorem track_see (pose : Pose G V) :
    let tracked := trackPose setup (following.activation setup) pose
    tracked.1 = (following.see pose).activation setup ∧
      setup.vectors.apply tracked.2 (following.target setup) =
        (following.see pose).target setup := by
  have hstart : ((following.activation setup).tracked.getD
      ⟨pose, .still⟩).startPose = (following.seen.map (·.1)).getD pose := by
    unfold activation
    cases following.seen <;> rfl
  have hprevious : ((following.activation setup).tracked.getD
      ⟨pose, .still⟩).previousRelativePose = following.motion setup := by
    unfold activation motion
    cases following.seen <;> rfl
  simp only [trackPose, hstart, hprevious]
  constructor
  · rfl
  · exact following.apply_between_targetAt setup _ _

end Following

def HandView.press (controller : XrController G V) (tcp : Pose G V)
    (view : HandView G V) : HandView G V :=
  let down : Bool := setup.buttonThreshold ≤ controller.intervention
  { down := down
    following := if down && !view.down then
        if view.following.isSome then none else some ⟨tcp, none, none⟩
      else view.following }

def HandView.see (controller : Option (XrController G V)) (tcp : Pose G V)
    (view : HandView G V) : HandView G V :=
  match controller with
  | none => view
  | some controller =>
    let pressed := view.press setup controller tcp
    match controller.pose with
    | none => pressed
    | some pose => { pressed with
        following := pressed.following.map fun following =>
          following.see (controllerPose setup pose) }

def HandView.restart (tcp : Pose G V) (view : HandView G V) : HandView G V :=
  { view with
    following := view.following.map fun following =>
      following.restart setup tcp }

/-- What an observer of the frames knows. -/
structure TeleopView (ι G V : Type) where
  timestamp : Option ℚ
  hands : ι → HandView G V

def TeleopView.initial : TeleopView ι G V where
  timestamp := none
  hands := fun _ => ⟨false, none⟩

def nextView (view : TeleopView ι G V) :
    TeleopEvent ι G V J → TeleopView ι G V
  | .reset _ => .initial
  | .autoReset feedback => { view with
      hands := fun i => (view.hands i).restart setup (feedback i).tcp }
  | .poll frame feedback => { view with
      hands := fun i =>
        match controllerOf frame i with
        | none => view.hands i
        | some controller =>
          (view.hands i).press setup controller (feedback i).tcp }
  | .act frame feedback =>
    let read := readFrame view.timestamp frame
    { timestamp := read.1
      hands := fun i => (view.hands i).see setup (controllerOf read.2 i)
        (feedback i).tcp }
  | .execute _ => view

/-! ## Every arm follows its hand -/

structure Follows (view : HandView G V) (arm : ArmState G V J) : Prop where
  down : arm.hand.interventionDown = view.down
  activation : arm.hand.activation =
    view.following.map (Following.activation setup)
  target : ∀ following, view.following = some following →
    arm.runtime.targetPose = some (following.target setup)

structure FollowsAll (view : TeleopView ι G V) (state : TeleopState ι G V J) :
    Prop where
  timestamp : view.timestamp = state.timestamp
  arms : ∀ i, Follows setup (view.hands i) (state.arms i)

section Arm

variable {setup} {view : HandView G V} {arm : ArmState G V J}
  {feedback : ArmFeedback G V J}

theorem Follows.press (hfollows : Follows setup view arm)
    (controller : XrController G V) (feedback : ArmFeedback G V J) :
    Follows setup (view.press setup controller feedback.tcp)
      (updateHandButtons setup controller feedback arm) := by
  obtain ⟨hdown, hactivation, htarget⟩ := hfollows
  unfold HandView.press updateHandButtons
  rw [hdown, hactivation]
  cases hedge : decide (setup.buttonThreshold ≤ controller.intervention) &&
      !view.down with
  | false =>
    simp only [hedge, Bool.false_eq_true, if_false]
    exact ⟨rfl, hactivation, htarget⟩
  | true =>
    simp only [hedge, if_true]
    cases view.following with
    | some following =>
      constructor <;> simp
    | none =>
      constructor <;> simp [ArmRuntime.sync, Following.activation,
        Following.target, Following.targetAt, Following.motion]

theorem Follows.rest [DecidableEq V] (hfollows : Follows setup view arm)
    (model : ArmModel G V J) :
    Follows setup view { arm with runtime := (taskDeltaToAction
      setup model feedback .zero arm.runtime).1 } := by
  obtain ⟨hdown, hactivation, htarget⟩ := hfollows
  refine ⟨hdown, hactivation, fun following hfollowing => ?_⟩
  simp [taskDeltaToAction, ArmDelta.zero, htarget following hfollowing]

theorem Follows.act [DecidableEq V] (hfollows : Follows setup view arm)
    (model : ArmModel G V J) (controller : Option (XrController G V)) :
    let moved := armFromFrame setup controller feedback arm
    Follows setup (view.see setup controller feedback.tcp)
      { moved.1 with runtime := (taskDeltaToAction setup model feedback
        moved.2 moved.1.runtime).1 } := by
  cases controller with
  | none => exact hfollows.rest model
  | some controller =>
    have hpressed := hfollows.press controller feedback
    cases hpose : controller.pose with
    | none => simpa [armFromFrame, HandView.see, hpose] using
        hpressed.rest model
    | some pose =>
      simp only [armFromFrame, HandView.see, hpose]
      obtain ⟨hdown, hactivation, htarget⟩ := hpressed
      constructor
      case down => exact hdown
      case activation =>
        simp only [trackHand, hactivation, Option.map_map]
        apply Option.map_congr
        intro following _
        exact (following.track_see setup _).1
      case target =>
        intro next hnext
        obtain ⟨following, hfollowing, rfl⟩ := Option.map_eq_some_iff.mp hnext
        simp only [taskDeltaToAction, htarget following hfollowing, trackHand,
          hactivation, hfollowing, Option.map_some, Option.getD_some]
        exact congrArg some (following.track_see setup _).2

theorem Follows.restart (hfollows : Follows setup view arm) :
    Follows setup (view.restart setup feedback.tcp)
      { arm with runtime := .sync feedback } := by
  constructor
  case down => exact hfollows.down
  case activation =>
    simp only [HandView.restart, Option.map_map]
    exact hfollows.activation
  case target =>
    intro next hnext
    obtain ⟨following, _, rfl⟩ := Option.map_eq_some_iff.mp hnext
    rw [following.restart_target setup]
    rfl

end Arm

theorem FollowsAll.next [DecidableEq V] {setup : TeleopSetup ι G V J}
    {view : TeleopView ι G V} {state : TeleopState ι G V J}
    (hfollows : FollowsAll setup view state) (event : TeleopEvent ι G V J) :
    FollowsAll setup (nextView setup view event)
      (nextState setup state event) := by
  obtain ⟨htimestamp, harms⟩ := hfollows
  cases event with
  | reset feedback => exact ⟨rfl, fun i => ⟨rfl, rfl, nofun⟩⟩
  | autoReset feedback => exact ⟨htimestamp, fun i => (harms i).restart⟩
  | poll frame feedback =>
    refine ⟨htimestamp, fun i => ?_⟩
    simp only [nextView, nextState, updateButtons]
    cases controllerOf frame i with
    | none => exact harms i
    | some controller => exact (harms i).press controller _
  | act frame feedback =>
    simp only [nextView, nextState, actionFromFrame, htimestamp]
    exact ⟨rfl, fun i => (harms i).act (setup.arm i) _⟩
  | execute action =>
    exact ⟨htimestamp, fun i =>
      ⟨(harms i).down, (harms i).activation, (harms i).target⟩⟩

theorem arms_follow_hands [DecidableEq V] (setup : TeleopSetup ι G V J)
    (start : ι → ArmFeedback G V J) (events : List (TeleopEvent ι G V J)) :
    FollowsAll setup (events.foldl (nextView setup) .initial)
      (events.foldl (nextState setup) (resetState start)) := by
  induction events using List.reverseRecOn with
  | nil => exact ⟨rfl, fun i => ⟨rfl, rfl, nofun⟩⟩
  | append_singleton events event ih =>
    simp only [List.foldl_append, List.foldl_cons, List.foldl_nil]
    exact ih.next event

end PiperTeleop
end VerlVla
