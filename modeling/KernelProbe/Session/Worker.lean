import KernelProbe.Automation.Controller
import KernelProbe.Gdb.Channel

/-!
# The worker

The automation of a debugger takes one event after the other. It installs its controller when
the session has attached to the target, answers stops, lets the target go on where the
controller says so, and carries out the commands of the operator that it knows.

What the worker does with an event is a program over its connection. `Thread` holds such a
program where it waits for an answer, so that the session can go on in the meantime.
-/

namespace KernelProbe.Session

open Automation Debugger Gdb

/-- What the worker is told. -/
inductive WorkerEvent
  /-- The initial commands were sent. -/
  | attach
  /-- The target stopped at a breakpoint. -/
  | stopped (id : HookId)
  /-- The operator typed a command that is registered. -/
  | userCommand (token : Option UInt64) (text : String)
  deriving DecidableEq, Repr

/-- The end of an operator's command, with the error if it failed. -/
structure Completion where
  token : Option UInt64
  error : Option String
  deriving DecidableEq, Repr

/-- What the worker keeps between events. -/
structure Worker where
  /-- The configuration, until it is used. -/
  config : Option Automation.Config
  /-- The controller, once it is installed. -/
  controller : Option Controller

namespace Worker

/-- A worker that has seen no event. -/
def new (config : Automation.Config) : Worker := ⟨some config, none⟩

/-- The session has attached: installs the controller, the first time. -/
def onAttach (w : Worker) : Program channel Worker :=
  match w.config with
  | none => pure w
  | some config => do
    match ← carryOut (Controller.install config) with
    | .ok controller => pure ⟨none, some controller⟩
    | .error e =>
      .ask channel (.console s!"Automation disabled: {e.message}")
      pure ⟨none, w.controller⟩

/-- The target has stopped: lets it go on if the controller says so. -/
def onStopped (w : Worker) (id : HookId) : Program channel Worker :=
  match w.controller with
  | none => pure w
  | some controller => do
    let (decision, controller) ← carryOut (controller.onStop translateAddress id)
    if decision = .resume then
      tryCall continueRequest
    pure { w with controller := some controller }

/-- The operator typed a command. -/
def onUserCommand (commands : Registry) (token : Option UInt64) (text : String) :
    Program channel Completion := do
  match ← carryOut (runCommand commands text) with
  | .ok () => pure ⟨token, none⟩
  | .error e => pure ⟨token, some e.message⟩

/-- Takes an event, under the commands registered so far. -/
def react (commands : Registry) (w : Worker) :
    WorkerEvent → Program channel (Worker × Option Completion)
  | .attach => do return (← w.onAttach, none)
  | .stopped id => do return (← w.onStopped id, none)
  | .userCommand token text => do return (w, some (← onUserCommand commands token text))

end Worker

/-- Whether the first word of a text is a registered command. -/
def handles (commands : Registry) (text : String) : Bool :=
  match Text.firstWord? text.toList with
  | none => false
  | some name => commands.has (String.ofList name)

/-- What the worker sends to the session. -/
inductive WorkerMessage
  /-- A request for the debugger; the worker waits for the answer. -/
  | request (command : String)
  /-- A line for the operator's console. -/
  | output (line : String)
  /-- The end of an operator's command. -/
  | finished (c : Completion)
  deriving DecidableEq, Repr

/-- What is left of the worker's program for an event. -/
abbrev Work := Program channel (Worker × Option Completion)

/-- The worker between two answers. -/
structure Thread where
  commands : Registry
  /-- The worker, or the rest of its program behind a request. -/
  state : Worker ⊕ (String × (Except Error Mi.Record → Work))
  /-- The events that wait for the worker, oldest first. -/
  mailbox : List WorkerEvent

namespace Thread

/-- Goes on with a program up to its next request or its end; gives the messages that were
    sent. -/
def advance : Work → Registry → List WorkerMessage × Registry ×
    (Worker ⊕ (String × (Except Error Mi.Record → Work)))
  | .done (w, completion), commands =>
    (completion.toList.map .finished, commands, .inl w)
  | .call (.request command) next, commands =>
    ([.request command], commands, .inr (command, next))
  | .call (.console line) next, commands =>
    let (sent, rest) := advance (next ()) commands
    (.output line :: sent, rest)
  | .call (.register name handler) next, commands =>
    advance (next ()) (commands.insert name handler)

/-- The worker of a debugger that has just started. -/
def new (config : Automation.Config) : Thread := ⟨.empty, .inl (.new config), []⟩

/-- Takes waiting events as long as the worker waits for no answer. -/
def work (commands : Registry) (state : Worker ⊕ (String × (Except Error Mi.Record → Work))) :
    (mailbox : List WorkerEvent) → List WorkerMessage × Thread
  | [] => ([], ⟨commands, state, []⟩)
  | e :: mailbox =>
    match state with
    | .inr waiting => ([], ⟨commands, .inr waiting, e :: mailbox⟩)
    | .inl w =>
      let (sent, commands, state) := advance (w.react commands e) commands
      let (more, t) := work commands state mailbox
      (sent ++ more, t)

/-- Tells the worker an event. -/
def notify (t : Thread) (e : WorkerEvent) : List WorkerMessage × Thread :=
  work t.commands t.state (t.mailbox ++ [e])

/-- Gives the worker the answer to its request, or tells it that there will be none. -/
def answer (t : Thread) (record : Option Mi.Record) : List WorkerMessage × Thread :=
  match t.state with
  | .inl _ => ([], t)
  | .inr (command, next) =>
    let result := record.elim (.error (.noReply command)) .ok
    let (sent, commands, state) := advance (next result) t.commands
    let (more, t) := work commands state t.mailbox
    (sent ++ more, t)

end Thread

end KernelProbe.Session
