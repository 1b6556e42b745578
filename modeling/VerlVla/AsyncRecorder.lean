import VerlVla.Recorder

/-!
# The asynchronous recorder

The caller puts commands on a bounded queue, and a worker thread applies them
to the wrapped recorder.  A failure is kept in a shared field that the caller
reads when it makes a call.  Synchronous calls wait for the worker's response;
`finalize` also stops the thread with a sentinel.
-/

namespace VerlVla

open Transition

/-- What the caller is doing.  Between its check of the shared error and the
queue it is putting; `closing` and `joining` are the end of `finalize`. -/
inductive CallerPhase (F E P : Type)
  | idle
  | putting (call : RecorderCall F)
  | waiting (call : RecorderCall F)
  | closing (ending : Except (CallError E) P)
  | joining (ending : Except (CallError E) P)

/-- A queued `none` is the sentinel. -/
structure AsyncRecorder (R F E P : Type) where
  recorder : R
  commands : List (Option (RecorderCall F))
  running : Option (RecorderCall F)
  error : Option E
  closed : Bool
  response : Option (Except E P)
  alive : Bool
  caller : CallerPhase F E P

inductive AsyncLabel (F : Type)
  | call (call : RecorderCall F)
  | put
  | receive
  | close
  | join
  | get
  | run

def AsyncLabel.isCall {F : Type} : AsyncLabel F → Bool
  | .call _ => true
  | _ => false

namespace AsyncRecorder

variable {R F E P : Type} (recorder : BaseRecorder R F E P) (queueSize : ℕ)
  (state : AsyncRecorder R F E P)

def start (state : R) : AsyncRecorder R F E P where
  recorder := state
  commands := []
  running := none
  error := none
  closed := false
  response := none
  alive := true
  caller := .idle

/-- A call ends, but `finalize` closes the recorder before it ends. -/
def finish (call : RecorderCall F) (ending : Except (CallError E) P) :
    List (RecorderEvent F E P) × AsyncRecorder R F E P :=
  if call.finalizes then ([], { state with caller := .closing ending })
  else ([.ended call ending], { state with caller := .idle })

/-- A call checks the error of the worker, and that the recorder is open. -/
def makeCall (call : RecorderCall F) :
    List (RecorderEvent F E P) × AsyncRecorder R F E P :=
  if call.finalizes && state.closed then
    ([.called call, .returned call none], state)
  else
    match state.error with
    | some cause =>
      let raised := state.finish call (.error (.workerFailed cause))
      (.called call :: raised.1, raised.2)
    | none =>
      if state.closed then ([.called call, .raised call .finalized], state)
      else ([.called call], { state with caller := .putting call })

def putCommand (call : RecorderCall F) :
    List (RecorderEvent F E P) × AsyncRecorder R F E P :=
  let queued := { state with commands := state.commands ++ [some call] }
  if call.synchronous then ([], { queued with caller := .waiting call })
  else ([.returned call none], { queued with caller := .idle })

/-- An answer is returned after another check of the worker's error. -/
def receiveResponse (call : RecorderCall F) (response : Except E P) :
    List (RecorderEvent F E P) × AsyncRecorder R F E P :=
  let received := { state with response := none }
  match response, state.error with
  | .error error, _ => received.finish call (.error (.own error))
  | .ok _, some cause => received.finish call (.error (.workerFailed cause))
  | .ok answer, none => received.finish call (.ok answer)

def putSentinel (ending : Except (CallError E) P) : AsyncRecorder R F E P :=
  { state with
    commands := state.commands ++ [none]
    closed := true
    caller := .joining ending }

def takeCommand (command : Option (RecorderCall F))
    (commands : List (Option (RecorderCall F))) : AsyncRecorder R F E P :=
  match command with
  | some call => { state with commands := commands, running := some call }
  | none => { state with commands := commands, alive := false }

/-- The wrapped call.  A caller that waits is answered, and an exception is
kept for later calls. -/
def runCommand (call : RecorderCall F) :
    List (RecorderEvent F E P) × AsyncRecorder R F E P :=
  let applied := recorder.apply call state.recorder
  ([.applied call applied.1], { state with
      recorder := applied.2
      running := none
      error := match applied.1 with
        | .error error => some error
        | .ok _ => state.error
      response := if call.synchronous then some applied.1
        else state.response })

/-! ## Steps -/

/-- A put waits while the queue is full, and a read while it is empty. -/
def step :
    AsyncLabel F → Option (List (RecorderEvent F E P) × AsyncRecorder R F E P)
  | .call call =>
    match state.caller with
    | .idle => some (state.makeCall call)
    | _ => none
  | .put =>
    match state.caller with
    | .putting call =>
      if state.commands.length < queueSize then
        some (state.putCommand call)
      else none
    | _ => none
  | .receive =>
    match state.caller, state.response with
    | .waiting call, some response =>
      some (state.receiveResponse call response)
    | _, _ => none
  | .close =>
    match state.caller with
    | .closing ending =>
      if state.commands.length < queueSize then
        some ([], state.putSentinel ending)
      else none
    | _ => none
  | .join =>
    match state.caller with
    | .joining ending =>
      if state.alive then none
      else some ([.ended .finalize ending], { state with caller := .idle })
    | _ => none
  | .get =>
    match state.alive, state.running, state.commands with
    | true, none, command :: commands =>
      some ([], state.takeCommand command commands)
    | _, _, _ => none
  | .run =>
    match state.running with
    | some call => some (state.runCommand recorder call)
    | none => none

inductive Move :
    AsyncLabel F → List (RecorderEvent F E P) × AsyncRecorder R F E P → Prop
  | call (hcaller : state.caller = .idle) (call : RecorderCall F) :
      Move (.call call) (state.makeCall call)
  | put {call : RecorderCall F} (hcaller : state.caller = .putting call)
      (hroom : state.commands.length < queueSize) :
      Move .put (state.putCommand call)
  | receive {call : RecorderCall F} {response : Except E P}
      (hcaller : state.caller = .waiting call)
      (hresponse : state.response = some response) :
      Move .receive (state.receiveResponse call response)
  | close {ending : Except (CallError E) P}
      (hcaller : state.caller = .closing ending)
      (hroom : state.commands.length < queueSize) :
      Move .close ([], state.putSentinel ending)
  | join {ending : Except (CallError E) P}
      (hcaller : state.caller = .joining ending)
      (halive : state.alive = false) :
      Move .join ([.ended .finalize ending], { state with caller := .idle })
  | get {command : Option (RecorderCall F)}
      {commands : List (Option (RecorderCall F))} (halive : state.alive = true)
      (hrunning : state.running = none)
      (hcommands : state.commands = command :: commands) :
      Move .get ([], state.takeCommand command commands)
  | run {call : RecorderCall F} (hrunning : state.running = some call) :
      Move .run (state.runCommand recorder call)

theorem move_of_step {state : AsyncRecorder R F E P}
    (hstep : state.step recorder queueSize label = some result) :
    state.Move recorder queueSize label result := by
  cases label with
  | call call =>
    cases hcaller : state.caller with
    | idle =>
      simp only [step, hcaller, Option.some.injEq] at hstep
      rw [← hstep]
      exact .call hcaller call
    | _ => simp [step, hcaller] at hstep
  | put =>
    cases hcaller : state.caller with
    | putting call =>
      simp only [step, hcaller] at hstep
      split_ifs at hstep with hroom
      rw [← Option.some.inj hstep]
      exact .put hcaller hroom
    | _ => simp [step, hcaller] at hstep
  | receive =>
    cases hcaller : state.caller with
    | waiting call =>
      cases hresponse : state.response with
      | none => simp [step, hcaller, hresponse] at hstep
      | some response =>
        simp only [step, hcaller, hresponse, Option.some.injEq] at hstep
        rw [← hstep]
        exact .receive hcaller hresponse
    | _ => simp [step, hcaller] at hstep
  | close =>
    cases hcaller : state.caller with
    | closing ending =>
      simp only [step, hcaller] at hstep
      split_ifs at hstep with hroom
      rw [← Option.some.inj hstep]
      exact .close hcaller hroom
    | _ => simp [step, hcaller] at hstep
  | join =>
    cases hcaller : state.caller with
    | joining ending =>
      simp only [step, hcaller] at hstep
      split_ifs at hstep with halive
      rw [← Option.some.inj hstep]
      exact .join hcaller (Bool.not_eq_true _ ▸ halive)
    | _ => simp [step, hcaller] at hstep
  | get =>
    cases halive : state.alive with
    | false => simp [step, halive] at hstep
    | true =>
      cases hrunning : state.running with
      | some call => simp [step, halive, hrunning] at hstep
      | none =>
        cases hcommands : state.commands with
        | nil => simp [step, halive, hrunning, hcommands] at hstep
        | cons command commands =>
          simp only [step, halive, hrunning, hcommands,
            Option.some.injEq] at hstep
          rw [← hstep]
          exact .get halive hrunning hcommands
  | run =>
    cases hrunning : state.running with
    | none => simp [step, hrunning] at hstep
    | some call =>
      simp only [step, hrunning, Option.some.injEq] at hstep
      rw [← hstep]
      exact .run hrunning

end AsyncRecorder

def asyncRecorder {R F E P : Type} (recorder : BaseRecorder R F E P)
    (queueSize : ℕ) :
    Machine (AsyncRecorder R F E P) (AsyncLabel F)
      (List (RecorderEvent F E P)) where
  step state label := state.step recorder queueSize label

end VerlVla
