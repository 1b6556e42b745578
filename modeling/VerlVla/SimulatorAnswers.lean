import VerlVla.SimulatorRpc

/-!
# Answers of the simulator process

An operation reads the oldest answer of the result queue.  Moves of the child
keep the number of outstanding answers as long as it lives, so the answer read
is the one to the command just put exactly when nothing was outstanding before.
-/

namespace VerlVla
namespace SimulatorRpc

open Transition

variable {Env Args Value : Type} {adapter : Adapter Env Args Value}

abbrev RpcEvent (Env Args Value : Type) :=
  Event (EnvManager Env Args Value) (Label Args) (Output Args Value)

namespace SimulatorProcess

theorem outstanding_of_started (process : SimulatorProcess Env Args Value)
    (hstarted : ∀ saved, process.child ≠ .starting saved) :
    process.outstanding =
      process.commandQueue.length + process.resultQueue.length := by
  unfold outstanding
  cases hchild : process.child with
  | starting saved => exact absurd hchild (hstarted saved)
  | serving env | exited => simp

theorem outstanding_put (process : SimulatorProcess Env Args Value)
    (command : Command Args) :
    (process.put command).outstanding = process.outstanding + 1 := by
  simp only [outstanding, put, List.length_append, List.length_singleton]
  omega

end SimulatorProcess

/-! ## Moves of the child -/

inductive ChildMove (adapter : Adapter Env Args Value) :
    SimulatorProcess Env Args Value → Output Args Value →
      SimulatorProcess Env Args Value → Prop
  | ready {saved : Option Value} {env : Env}
      {commands : List (Command Args)} {responses : List (Response Value)}
      (hlaunch : adapter.launch saved = .ok env) :
      ChildMove adapter ⟨.starting saved, commands, responses⟩ .silent
        ⟨.serving env, commands, responses ++ [.ready]⟩
  | launchFailed {saved : Option Value} {text : String}
      {commands : List (Command Args)} {responses : List (Response Value)}
      (hlaunch : adapter.launch saved = .error text) :
      ChildMove adapter ⟨.starting saved, commands, responses⟩ .silent
        ⟨.exited, commands, responses ++ [.error text]⟩
  | performed {env : Env} {command : Command Args}
      {rest : List (Command Args)} {responses : List (Response Value)}
      (hmethod : command.method ≠ "shutdown") :
      ChildMove adapter ⟨.serving env, command :: rest, responses⟩
        (.served command (adapter.perform env command).1)
        ⟨.serving (adapter.perform env command).2, rest,
          responses ++ [(adapter.perform env command).1]⟩
  | closeFailed {env next : Env} {text : String} {command : Command Args}
      {rest : List (Command Args)} {responses : List (Response Value)}
      (hclose : adapter.close env = .error (text, next)) :
      ChildMove adapter ⟨.serving env, command :: rest, responses⟩
        (.served command (.error text))
        ⟨.serving next, rest, responses ++ [.error text]⟩
  | closed {env : Env} {command : Command Args}
      {rest : List (Command Args)} {responses : List (Response Value)}
      (hmethod : command.method = "shutdown") :
      ChildMove adapter ⟨.serving env, command :: rest, responses⟩ .silent
        ⟨.exited, rest, responses⟩
  | exited {child : Child Env Value} {commands : List (Command Args)}
      {responses : List (Response Value)} :
      ChildMove adapter ⟨child, commands, responses⟩ .silent
        ⟨.exited, commands, responses⟩

theorem childMove_of_launch (hlaunch : process.launch adapter = some moved) :
    ChildMove adapter process .silent moved := by
  obtain ⟨child, commands, responses⟩ := process
  cases child with
  | starting saved =>
    simp only [SimulatorProcess.launch] at hlaunch
    cases hresult : adapter.launch saved with
    | ok env =>
      rw [hresult] at hlaunch
      cases hlaunch
      exact .ready hresult
    | error text =>
      rw [hresult] at hlaunch
      cases hlaunch
      exact .launchFailed hresult
  | serving env | exited => cases hlaunch

theorem childMove_of_serve
    (hserve : process.serve adapter = some (output, moved)) :
    ChildMove adapter process output moved := by
  obtain ⟨child, commands, responses⟩ := process
  cases child with
  | starting saved | exited => cases hserve
  | serving env =>
    cases commands with
    | nil => cases hserve
    | cons command rest =>
      simp only [SimulatorProcess.serve] at hserve
      by_cases hmethod : command.method = "shutdown"
      · rw [if_pos hmethod] at hserve
        cases hclose : adapter.close env with
        | ok _ =>
          rw [hclose] at hserve
          cases hserve
          exact .closed hmethod
        | error failure =>
          rw [hclose] at hserve
          cases hserve
          exact .closeFailed hclose
      · rw [if_neg hmethod] at hserve
        cases hserve
        exact .performed hmethod

theorem childMove_of_step
    (hstep : (machine adapter).step state label = some (output, next))
    (hchild : label.isChild = true) :
    ∃ process moved, state.process = some process ∧
      ChildMove adapter process output moved ∧
      next = { state with process := some moved } := by
  cases hprocess : state.process with
  | none =>
    cases label <;> simp [machine, EnvManager.step, hprocess,
      Label.isChild] at hstep hchild
  | some process =>
    cases label with
    | childLaunch =>
      simp only [machine, EnvManager.step, hprocess, Option.bind_some] at hstep
      cases hlaunch : process.launch adapter with
      | none => simp [hlaunch] at hstep
      | some moved =>
        rw [hlaunch] at hstep
        cases hstep
        exact ⟨process, moved, rfl, childMove_of_launch hlaunch, rfl⟩
    | childServe =>
      simp only [machine, EnvManager.step, hprocess, Option.bind_some] at hstep
      cases hserve : process.serve adapter with
      | none => simp [hserve] at hstep
      | some result =>
        rw [hserve] at hstep
        cases hstep
        exact ⟨process, _, rfl, childMove_of_serve hserve, rfl⟩
    | childExit =>
      simp only [machine, EnvManager.step, hprocess] at hstep
      cases hstep
      exact ⟨process, _, rfl, .exited, rfl⟩
    | _ => cases hchild

namespace ChildMove

variable {process moved : SimulatorProcess Env Args Value}
  {output : Output Args Value}

section

variable (hmove : ChildMove adapter process output moved)

include hmove

theorem resultQueue_length_le :
    process.resultQueue.length ≤ moved.resultQueue.length := by
  cases hmove <;> simp

theorem outstanding_eq (halive : moved.isAlive = true) :
    process.isAlive = true ∧ moved.outstanding = process.outstanding := by
  cases hmove with
  | ready _ | performed _ | closeFailed _ =>
    constructor
    · rfl
    · simp [SimulatorProcess.outstanding]
      omega
  | launchFailed _ | closed _ | exited => cases halive

theorem not_starting
    (saved : Option Value) : moved.child ≠ .starting saved := by
  cases hmove <;> simp

end

theorem of_served
    (hmove : ChildMove adapter process (.served command response) moved) :
    moved.isAlive = true ∧
      process.commandQueue = command :: moved.commandQueue := by
  cases hmove with
  | performed _ | closeFailed _ => exact ⟨rfl, rfl⟩

/-- Once started, the child leaves the queues alone, closes on the oldest
command, or answers it. -/
theorem queues (hmove : ChildMove adapter process output moved)
    (hstarted : ∀ saved, process.child ≠ .starting saved) :
    (moved.commandQueue = process.commandQueue ∧
        moved.resultQueue = process.resultQueue) ∨
      (∃ command, process.commandQueue = command :: moved.commandQueue ∧
        moved.resultQueue = process.resultQueue) ∨
      (∃ command response, output = .served command response ∧
        process.commandQueue = command :: moved.commandQueue ∧
        moved.resultQueue = process.resultQueue ++ [response]) := by
  cases hmove with
  | ready _ | launchFailed _ => exact absurd rfl (hstarted _)
  | exited => exact .inl ⟨rfl, rfl⟩
  | closed _ => exact .inr (.inl ⟨_, rfl, rfl⟩)
  | performed _ | closeFailed _ => exact .inr (.inr ⟨_, _, rfl, rfl, rfl⟩)

end ChildMove

theorem child_run {start final : EnvManager Env Args Value}
    {process : SimulatorProcess Env Args Value}
    {events : List (RpcEvent Env Args Value)}
    (hrun : Run (machine adapter) start events final)
    (hchild : ∀ event ∈ events, event.label.isChild = true)
    (hprocess : start.process = some process) :
    ∃ moved, final = { start with process := some moved } ∧
      process.resultQueue.length ≤ moved.resultQueue.length ∧
      (moved.isAlive = true →
        process.isAlive = true ∧ moved.outstanding = process.outstanding) := by
  induction hrun with
  | nil =>
    refine ⟨process, ?_, le_refl _, fun halive => ⟨halive, rfl⟩⟩
    rw [← hprocess]
  | snoc _ hstep ih =>
    obtain ⟨middle, hmiddle, hlength, hmoved⟩ :=
      ih fun event hevent => hchild event (List.mem_append_left _ hevent)
    have hlast := hchild _ (List.mem_append_right _
      (List.mem_singleton_self _))
    obtain ⟨before, moved, hbefore, hmove, hnext⟩ :=
      childMove_of_step hstep hlast
    rw [hmiddle] at hbefore hnext
    cases hbefore
    refine ⟨moved, hnext, hlength.trans hmove.resultQueue_length_le, ?_⟩
    intro halive
    obtain ⟨halive, hout⟩ := hmove.outstanding_eq halive
    obtain ⟨hstart, hmiddleOut⟩ := hmoved halive
    exact ⟨hstart, hout.trans hmiddleOut⟩

/-! ## Exchanges -/

/-- An operation that put a command and read an answer, with the moves of the
child in between. -/
structure Exchange (adapter : Adapter Env Args Value)
    (events : List (RpcEvent Env Args Value)) (operation : Operation Args)
    (command : Command Args) (issued : RpcEvent Env Args Value)
    (between : List (RpcEvent Env Args Value))
    (received : RpcEvent Env Args Value) : Prop where
  inRun : ∃ left right,
    events = left ++ issued :: (between ++ received :: right)
  puts : operation.command? adapter = some command
  issue : issued.label = .issue operation
  waits : issued.output = .waiting
  child : ∀ event ∈ between, event.label.isChild = true
  receive : received.label = .receive

/-- The answer read is the one the child computed for the command that the
operation put last into the queue. -/
structure OwnAnswer (operation : Operation Args) (command : Command Args)
    (between : List (RpcEvent Env Args Value))
    (received : RpcEvent Env Args Value) (response : Response Value) :
    Prop where
  computed : ∃ served ∈ between, served.output = .served command response ∧
    served.before.commandQueue = [command]
  only : received.before.resultQueue = [response]
  output : received.output = operation.outcome response
  stored : received.after.stateBuffer =
    operation.stored response received.before.stateBuffer

theorem EnvManager.process_of_running {manager : EnvManager Env Args Value}
    {process : SimulatorProcess Env Args Value}
    (hrunning : manager.running = some process) :
    manager.process = some process := by
  unfold running at hrunning
  cases hprocess : manager.process with
  | none => simp [hprocess] at hrunning
  | some found =>
    rw [hprocess] at hrunning
    dsimp only at hrunning
    by_cases halive : found.isAlive = true
    · rw [if_pos halive] at hrunning
      exact hrunning
    · rw [if_neg halive] at hrunning
      cases hrunning

/-- An operation answers at once, starts a process, or puts its command. -/
inductive IssueMove (adapter : Adapter Env Args Value)
    (manager : EnvManager Env Args Value) (operation : Operation Args) :
    Output Args Value × EnvManager Env Args Value → Prop
  | atOnce {output : Output Args Value} (houtput : output ≠ .waiting) :
      IssueMove adapter manager operation (output, manager)
  | started (hprocess : manager.process = none)
      (hcommand : operation.command? adapter = none) :
      IssueMove adapter manager operation (.waiting, { manager with
          process := some (.fresh manager.stateBuffer)
          pending := some operation })
  | sent {process : SimulatorProcess Env Args Value} {command : Command Args}
      (hprocess : manager.process = some process)
      (hcommand : operation.command? adapter = some command) :
      IssueMove adapter manager operation (.waiting, { manager with
          process := some (process.put command)
          pending := some operation })

theorem issueMove (manager : EnvManager Env Args Value)
    (operation : Operation Args) :
    IssueMove adapter manager operation (manager.issue adapter operation) := by
  cases operation with
  | startSimulator =>
    simp only [EnvManager.issue]
    cases hprocess : manager.process with
    | none => exact .started hprocess rfl
    | some process => exact .atOnce nofun
  | stopSimulator =>
    simp only [EnvManager.issue]
    cases hprocess : manager.process with
    | none => exact .atOnce nofun
    | some process => exact .sent hprocess rfl
  | setAttribute args =>
    simp only [EnvManager.issue]
    cases hrunning : manager.running with
    | none => exact .atOnce nofun
    | some process =>
      exact .sent (EnvManager.process_of_running hrunning) rfl
  | snapshotState timeout =>
    simp only [EnvManager.issue]
    cases hrunning : manager.running with
    | none => exact .atOnce nofun
    | some process =>
      dsimp only
      by_cases hlimit : timeout ≤ 0
      · rw [if_pos hlimit]
        exact .atOnce nofun
      · rw [if_neg hlimit]
        exact .sent (EnvManager.process_of_running hrunning) rfl
  | call command timeout =>
    simp only [EnvManager.issue]
    cases hrunning : manager.running with
    | none => exact .atOnce nofun
    | some process =>
      have hprocess := EnvManager.process_of_running hrunning
      cases timeout with
      | none => exact .sent hprocess rfl
      | some limit =>
        dsimp only
        by_cases hlimit : limit ≤ 0
        · rw [if_pos hlimit]
          exact .atOnce nofun
        · rw [if_neg hlimit]
          exact .sent hprocess rfl

theorem issue_eq (hstep : (machine adapter).step manager (.issue operation) =
      some (output, next)) :
    manager.pending = none ∧
      manager.issue adapter operation = (output, next) := by
  simp only [machine, EnvManager.step] at hstep
  cases hpending : manager.pending with
  | some other => simp [hpending] at hstep
  | none =>
    rw [hpending] at hstep
    exact ⟨rfl, Option.some_inj.mp hstep⟩

theorem issue_waiting (hcommand : operation.command? adapter = some command)
    (hstep : (machine adapter).step manager (.issue operation) =
      some (.waiting, next)) :
    ∃ process, manager.process = some process ∧ next = { manager with
        process := some (process.put command)
        pending := some operation } := by
  have hmove := @issueMove _ _ _ adapter manager operation
  rw [(issue_eq hstep).2] at hmove
  cases hmove with
  | atOnce houtput => exact absurd rfl houtput
  | started _ hnone =>
    simp [hcommand] at hnone
  | sent hprocess hsent =>
    rw [hcommand] at hsent
    cases hsent
    exact ⟨_, hprocess, rfl⟩

theorem receive_eq
    (hstep : (machine adapter).step manager .receive = some (output, next)) :
    ∃ operation process response rest,
      manager.pending = some operation ∧ manager.process = some process ∧
      process.resultQueue = response :: rest ∧
      (output, next) = manager.finish process operation response rest := by
  simp only [machine, EnvManager.step] at hstep
  cases hpending : manager.pending with
  | none => simp [hpending] at hstep
  | some operation =>
    cases hprocess : manager.process with
    | none => simp [hpending, hprocess] at hstep
    | some process =>
      rw [hpending, hprocess] at hstep
      dsimp only at hstep
      cases hqueue : process.resultQueue with
      | nil => simp [hqueue] at hstep
      | cons response rest =>
        rw [hqueue] at hstep
        exact ⟨operation, process, response, rest, rfl, rfl, hqueue,
          (Option.some_inj.mp hstep).symm⟩

/-- After an issue with nothing outstanding: the command waits, the child has
closed on it, or its answer is the only one. -/
inductive Awaited (command : Command Args)
    (events : List (RpcEvent Env Args Value))
    (process : SimulatorProcess Env Args Value) : Prop
  | waiting (hcommands : process.commandQueue = [command])
      (hresponses : process.resultQueue = [])
  | closed (hcommands : process.commandQueue = [])
      (hresponses : process.resultQueue = [])
  | answered (response : Response Value) (served : RpcEvent Env Args Value)
      (hcommands : process.commandQueue = [])
      (hresponses : process.resultQueue = [response])
      (hserved : served ∈ events)
      (houtput : served.output = .served command response)
      (hown : served.before.commandQueue = [command])

theorem awaited_run {command : Command Args}
    {start final : EnvManager Env Args Value}
    {process : SimulatorProcess Env Args Value}
    {events : List (RpcEvent Env Args Value)}
    (hrun : Run (machine adapter) start events final)
    (hchild : ∀ event ∈ events, event.label.isChild = true)
    (hprocess : start.process = some process)
    (hstarted : ∀ saved, process.child ≠ .starting saved)
    (hawaited : Awaited command [] process) :
    ∃ moved, final.process = some moved ∧
      (∀ saved, moved.child ≠ .starting saved) ∧
      Awaited command events moved := by
  induction hrun with
  | nil => exact ⟨process, hprocess, hstarted, hawaited⟩
  | @snoc state next prior label output _ hstep ih =>
    obtain ⟨middle, hmiddle, hmiddleStarted, hprior⟩ :=
      ih fun event hevent => hchild event (List.mem_append_left _ hevent)
    have hlast := hchild _ (List.mem_append_right _
      (List.mem_singleton_self _))
    obtain ⟨before, moved, hbefore, hmove, hnext⟩ :=
      childMove_of_step hstep hlast
    rw [hmiddle] at hbefore
    cases hbefore
    refine ⟨moved, by rw [hnext], hmove.not_starting, ?_⟩
    rcases hmove.queues hmiddleStarted with ⟨hcommands, hresponses⟩ |
      ⟨taken, hcommands, hresponses⟩ |
      ⟨taken, response, houtput, hcommands, hresponses⟩
    · cases hprior with
      | waiting hwaiting hread =>
        exact .waiting (hcommands.trans hwaiting) (hresponses.trans hread)
      | closed hempty hread =>
        exact .closed (hcommands.trans hempty) (hresponses.trans hread)
      | answered answer served hempty hread hserved houtput hown =>
        exact .answered answer served (hcommands.trans hempty)
          (hresponses.trans hread) (List.mem_append_left _ hserved)
          houtput hown
    · cases hprior with
      | waiting hwaiting hread =>
        rw [hcommands] at hwaiting
        exact .closed (List.cons_eq_cons.mp hwaiting).2
          (hresponses.trans hread)
      | closed hempty _ | answered _ _ hempty => simp [hcommands] at hempty
    · cases hprior with
      | waiting hwaiting hread =>
        have hown : state.commandQueue = [command] := by
          simp [EnvManager.commandQueue, hmiddle, hwaiting]
        rw [hcommands] at hwaiting
        obtain ⟨rfl, hempty⟩ := List.cons_eq_cons.mp hwaiting
        rw [hread] at hresponses
        exact .answered response _ hempty hresponses
          (List.mem_append_right _ (List.mem_singleton_self _))
          houtput hown
      | closed hempty _ | answered _ _ hempty => simp [hcommands] at hempty

namespace Exchange

variable {start final : EnvManager Env Args Value}
  {events between : List (RpcEvent Env Args Value)}
  {issued received : RpcEvent Env Args Value}

theorem parts
    (hexchange : Exchange adapter events operation command issued between
      received)
    (hrun : Run (machine adapter) start events final) :
    (∃ process, issued.before.process = some process ∧
      issued.after = { issued.before with
        process := some (process.put command)
        pending := some operation }) ∧
    Run (machine adapter) issued.after between received.before ∧
    (machine adapter).step received.before .receive =
      some (received.output, received.after) := by
  obtain ⟨left, right, rfl⟩ := hexchange.inRun
  obtain ⟨_, hissue, hrest⟩ := hrun.at_event
  obtain ⟨hbetween, hreceive, _⟩ := hrest.at_event
  rw [hexchange.issue, hexchange.waits] at hissue
  rw [hexchange.receive] at hreceive
  exact ⟨issue_waiting hexchange.puts hissue, hbetween, hreceive⟩

theorem own_of_quiet
    (hexchange : Exchange adapter events operation command issued between
      received)
    (hrun : Run (machine adapter) start events final)
    (hquiet : issued.before.outstanding = 0) :
    ∃ response, OwnAnswer operation command between received response := by
  obtain ⟨⟨process, hprocess, hissued⟩, hbetween, hreceive⟩ :=
    hexchange.parts hrun
  have hout : process.outstanding = 0 := by
    simpa [EnvManager.outstanding, hprocess] using hquiet
  have hstarted : ∀ saved, (process.put command).child ≠ .starting saved := by
    intro saved hsaved
    have hchild : process.child = .starting saved := hsaved
    simp [SimulatorProcess.outstanding, hchild] at hout
  have hawaited : Awaited command [] (process.put command) := by
    unfold SimulatorProcess.outstanding at hout
    apply Awaited.waiting
    · have hcommands : process.commandQueue = [] := by
        apply List.eq_nil_of_length_eq_zero
        omega
      simp [SimulatorProcess.put, hcommands]
    · apply List.eq_nil_of_length_eq_zero
      show process.resultQueue.length = 0
      omega
  have hput : issued.after.process = some (process.put command) := by
    rw [hissued]
  obtain ⟨moved, hmoved, _, hfinal⟩ :=
    awaited_run hbetween hexchange.child hput hstarted hawaited
  obtain ⟨_, hframe, _⟩ := child_run hbetween hexchange.child hput
  obtain ⟨waiting, reader, response, rest, hpending, hreader, hqueue,
    hfinish⟩ := receive_eq hreceive
  have hsame : reader = moved := by
    rw [hmoved] at hreader
    exact (Option.some_inj.mp hreader).symm
  have hwaiting : waiting = operation := by
    rw [hframe, hissued] at hpending
    exact (Option.some_inj.mp hpending).symm
  rw [hsame] at hqueue
  rw [hwaiting] at hfinish
  cases hfinal with
  | waiting _ hempty | closed _ hempty => simp [hqueue] at hempty
  | answered answer served _ hanswer hserved houtput hown =>
    rw [hqueue] at hanswer
    obtain ⟨rfl, rfl⟩ := List.cons_eq_cons.mp hanswer
    refine ⟨response, ⟨served, hserved, houtput, hown⟩, ?_, ?_, ?_⟩
    · simp [EnvManager.resultQueue, hmoved, hqueue]
    · exact (Prod.mk.inj hfinish).1
    · rw [(Prod.mk.inj hfinish).2]

theorem quiet_of_own
    (hexchange : Exchange adapter events operation command issued between
      received) (hrun : Run (machine adapter) start events final)
    (hown : OwnAnswer operation command between received response) :
    issued.before.outstanding = 0 := by
  obtain ⟨⟨process, hprocess, hissued⟩, hbetween, _⟩ := hexchange.parts hrun
  have hput : issued.after.process = some (process.put command) := by
    rw [hissued]
  obtain ⟨served, hserved, houtput, hlast⟩ := hown.computed
  obtain ⟨before, after, hsplit⟩ := List.append_of_mem hserved
  have hchild := hexchange.child
  rw [hsplit] at hbetween hchild
  obtain ⟨hearlier, hserve, hlater⟩ := hbetween.at_event
  obtain ⟨taker, hbefore, _, hkept⟩ := child_run hearlier
    (fun event hevent => hchild event (List.mem_append_left _ hevent)) hput
  obtain ⟨taker', moved, htaker, hmove, hmoved⟩ := childMove_of_step hserve
    (hchild served (List.mem_append_right _ List.mem_cons_self))
  have hafter : served.after.process = some moved := by rw [hmoved]
  obtain ⟨reader, hreader, hgrown, _⟩ := child_run hlater
    (fun event hevent => hchild event
      (List.mem_append_right _ (List.mem_cons_of_mem _ hevent))) hafter
  have hsame : taker' = taker := by
    rw [hbefore] at htaker
    exact (Option.some_inj.mp htaker).symm
  rw [hsame, houtput] at hmove
  obtain ⟨halive, hcommands⟩ := hmove.of_served
  have htakerCommands : taker.commandQueue.length = 1 := by
    have hqueue : served.before.commandQueue = taker.commandQueue := by
      rw [hbefore]
      rfl
    rw [← hqueue, hlast]
    rfl
  have hreaderResponses : reader.resultQueue.length = 1 := by
    have hqueue : received.before.resultQueue = reader.resultQueue := by
      rw [hreader]
      rfl
    rw [← hqueue, hown.only]
    rfl
  obtain ⟨htakerAlive, hmovedOut⟩ := hmove.outstanding_eq halive
  obtain ⟨_, htakerOut⟩ := hkept htakerAlive
  have hputOut : (process.put command).outstanding =
      process.outstanding + 1 := process.outstanding_put command
  have hmovedLength := moved.outstanding_of_started hmove.not_starting
  have hmovedCommands : moved.commandQueue.length = 0 := by
    rw [hcommands, List.length_cons] at htakerCommands
    omega
  have hquiet : process.outstanding = 0 := by omega
  simpa [EnvManager.outstanding, hprocess] using hquiet

end Exchange

/-- An operation reads its own answer exactly when no answer of the process was
outstanding as it was issued. -/
theorem exchange_own_answer_iff (adapter : Adapter Env Args Value)
    {final : EnvManager Env Args Value}
    {events between : List (RpcEvent Env Args Value)}
    {operation : Operation Args} {command : Command Args}
    {issued received : RpcEvent Env Args Value}
    (hrun : Run (machine adapter) .initial events final)
    (hexchange : Exchange adapter events operation command issued between
      received) :
    (∃ response, OwnAnswer operation command between received response) ↔
      issued.before.outstanding = 0 := by
  constructor
  · rintro ⟨response, hown⟩
    exact hexchange.quiet_of_own hrun hown
  · exact hexchange.own_of_quiet hrun

/-! ## A counter as environment -/

def counting : Adapter ℕ Unit ℕ where
  construct := .ok 0
  loadState _ saved := .ok saved
  truthy saved := saved ≠ 0
  getattr count name :=
    if name = "reset" then .method fun _ => (.ok count, count + 1)
    else if name = "get_state" then .method fun _ => (.ok count, count)
    else .missing
  setattr count _ := (.ok (), count)
  close _ := .ok ()
  noArgs := ()
  noValue := 0

def countingEvents (labels : List (Label Unit))
    (hexec : ((machine counting).exec .initial labels).isSome = true) :
    List (RpcEvent ℕ Unit ℕ) :=
  (((machine counting).exec .initial labels).get hexec).1

theorem countingEvents_run
    (hexec : ((machine counting).exec .initial labels).isSome = true) :
    ∃ final, Run (machine counting) .initial
      (countingEvents labels hexec) final :=
  ⟨_, Machine.run_of_exec (Option.some_get hexec).symm⟩

theorem countingEvents_inRun (events : List (RpcEvent ℕ Unit ℕ))
    (issued served : ℕ) (hserved : issued + served + 1 < events.length) :
    ∃ left right, events = left ++ events[issued] ::
      ((events.drop (issued + 1)).take served ++
        events[issued + served + 1] :: right) := by
  refine ⟨events.take issued, events.drop (issued + served + 2), ?_⟩
  have hreceived : events.drop (issued + 1 + served) =
      events[issued + served + 1] :: events.drop (issued + served + 2) := by
    have hindex : issued + 1 + served = issued + served + 1 := by omega
    rw [hindex, ← List.getElem_cons_drop hserved]
  have hsplit : events.drop (issued + 1 + served) =
      (events.drop (issued + 1)).drop served := by
    rw [List.drop_drop]
  rw [← hreceived, hsplit, List.take_append_drop, List.getElem_cons_drop,
    List.take_append_drop]

def stopLabels : List (Label Unit) :=
  [.issue .startSimulator, .childLaunch, .receive,
    .issue (.call ⟨"reset", ()⟩ (some 240)), .childServe, .receive,
    .issue .stopSimulator, .childServe, .receive]

def lateLabels : List (Label Unit) :=
  [.issue .startSimulator, .childLaunch, .receive,
    .issue (.call ⟨"reset", ()⟩ (some 240)), .expire, .childServe,
    .issue .stopSimulator, .receive]

theorem stopLabels_exec :
    ((machine counting).exec .initial stopLabels).isSome = true := by
  decide +kernel

theorem lateLabels_exec :
    ((machine counting).exec .initial lateLabels).isSome = true := by
  decide +kernel

def stopEvents : List (RpcEvent ℕ Unit ℕ) :=
  countingEvents stopLabels stopLabels_exec

def lateEvents : List (RpcEvent ℕ Unit ℕ) :=
  countingEvents lateLabels lateLabels_exec

theorem stopEvents_length : 6 + 1 + 1 < stopEvents.length := by
  decide +kernel

theorem lateEvents_length : 6 + 0 + 1 < lateEvents.length := by
  decide +kernel

theorem stopEvents_exchange :
    Exchange counting stopEvents .stopSimulator counting.getState
      (stopEvents.get ⟨6, by decide +kernel⟩) ((stopEvents.drop 7).take 1)
      (stopEvents.get ⟨8, by decide +kernel⟩) where
  inRun := countingEvents_inRun stopEvents 6 1 stopEvents_length
  puts := rfl
  issue := by decide +kernel
  waits := by decide +kernel
  child := by decide +kernel
  receive := by decide +kernel

theorem lateEvents_exchange :
    Exchange counting lateEvents .stopSimulator counting.getState
      (lateEvents.get ⟨6, by decide +kernel⟩) ((lateEvents.drop 7).take 0)
      (lateEvents.get ⟨7, by decide +kernel⟩) where
  inRun := countingEvents_inRun lateEvents 6 0 lateEvents_length
  puts := rfl
  issue := by decide +kernel
  waits := by decide +kernel
  child := by decide +kernel
  receive := by decide +kernel

theorem exchange_own_answer_iff_stopped :
    ∃ response, OwnAnswer .stopSimulator counting.getState
      ((stopEvents.drop 7).take 1)
      (stopEvents.get ⟨8, by decide +kernel⟩) response := by
  obtain ⟨final, hrun⟩ := countingEvents_run stopLabels_exec
  apply (exchange_own_answer_iff counting hrun stopEvents_exchange).mpr
  decide +kernel

/-- The late answer of a reset is stored as the state of the simulator: the
child has counted one reset, the state says none. -/
theorem late_answer_stored_as_state : ∃ events final between issued received,
      Run (machine counting) .initial events final ∧
      Exchange counting events .stopSimulator counting.getState issued between
        received ∧
      (¬∃ response, OwnAnswer .stopSimulator counting.getState between
        received response) ∧
      received.after.stateBuffer = some 0 ∧
      received.before.process.map (·.child) = some (.serving 1) := by
  obtain ⟨final, hrun⟩ := countingEvents_run lateLabels_exec
  refine ⟨lateEvents, final, _, _, _, hrun, lateEvents_exchange, ?_,
    by decide +kernel, by decide +kernel⟩
  rintro ⟨response, hown⟩
  obtain ⟨served, hserved, _⟩ := hown.computed
  cases hserved

end SimulatorRpc
end VerlVla
