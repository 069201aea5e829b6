import KernelProbe.Session.Config
import KernelProbe.Session.Placeholder
import KernelProbe.Session.Transcript
import KernelProbe.Session.Worker

/-!
# The control loop

All that happens to a session comes as a sequence of events: lines of the debugger, lines of
the operator, and messages of the worker. Each debugger has a generation, and events of other
generations are passed over.

A request of the worker goes to the debugger with a token of its own. The debugger's answer with
that token goes back to the worker and is not shown to the operator; every other line is shown.
A line of the operator goes to the worker if it is a command registered there, else to the
debugger. `onEvent` says what an event leads to, as a program over the debugger, the operator,
the transcript and the worker.
-/

namespace KernelProbe.Session

open Mi

/-- What happens to a session. -/
inductive Event
  /-- A line of the debugger. -/
  | debuggerLine (generation : Nat) (line : String)
  /-- The debugger closed its output. -/
  | debuggerClosed (generation : Nat)
  /-- A line of the operator. -/
  | input (line : String)
  /-- The operator's input ended. -/
  | inputClosed
  /-- A request of the worker, and whom the answer goes to. -/
  | automationRequest (generation : Nat) (command : String) (requester : Nat)
  /-- A line of the worker for the operator's console. -/
  | automationOutput (generation : Nat) (line : String)
  /-- The end of an operator's command. -/
  | automationDone (generation : Nat) (completion : Completion)
  deriving DecidableEq, Repr

/-- What the control loop does. -/
inductive Action where
  /-- Write a line to the debugger; the answer says whether that succeeded. -/
  | write (line : String)
  /-- Show a line to the operator. -/
  | forward (line : String)
  /-- Record an entry in the transcript. -/
  | log (entry : Entry)
  /-- Tell the worker an event. -/
  | notify (event : WorkerEvent)
  /-- Answer a request of the worker, or tell that there will be no answer. -/
  | reply (requester : Nat) (record : Option Record)
  /-- Ask whether the first word of a text is a registered command. -/
  | handles (text : String)
  /-- Make the debugger end. -/
  | terminate

/-- The answer to an action. -/
abbrev Action.Answer : Action → Type
  | .write _ => Bool
  | .handles _ => Bool
  | _ => Unit

/-- The interface of the control loop. -/
abbrev surroundings : Interface := ⟨Action, Action.Answer⟩

/-- A program of the control loop. -/
abbrev Control (α : Type) := Program surroundings α

/-- The program of one action. -/
def act (a : Action) : Control a.Answer :=
  .ask surroundings a

/-- One debugger and what belongs to it. -/
structure Instance where
  /-- The number of the debugger in the session. It is not bounded here, where a session counts in
      64 bits, more than it can ever start. -/
  generation : Nat
  mux : Multiplexer
  /-- Whether the session does the automation. -/
  automated : Bool
  /-- The requests without an answer yet: their tokens, and whom the answer goes to. -/
  pending : Dict Nat Nat
  /-- The token of the worker's next request. Like the generation, it is not bounded here. -/
  nextToken : Nat

/-- The token of a worker's first request. -/
def firstToken : Nat := 900000000

/-- A debugger that has just started. -/
def Instance.new (c : Config) (generation : Nat) : Instance where
  generation := generation
  mux := .new c.markers c.initialCommands c.automation.isNone
  automated := c.automation.isSome
  pending := .empty
  nextToken := firstToken

/-- Why the control loop leaves a debugger. -/
inductive InstanceEnd
  /-- The debugger ended. -/
  | exited
  /-- The operator's input ended. -/
  | inputClosed
  deriving DecidableEq, Repr

/-- Sends a command to the debugger, with the root in place of the placeholder. A debugger that
    does not take it is made to end. -/
def sendCommand (c : Config) (command : String) : Control Unit := do
  let line := fillRoot command c.root
  if line ≠ command then
    act (.log (.filled command line))
  if ← act (.write line) then
    act (.log (.command line))
  else act .terminate

/-- Sends commands to the debugger, one after the other. -/
def sendAll (c : Config) : List String → Control Unit
  | [] => pure ()
  | command :: r => do
    sendCommand c command
    sendAll c r

/-- Shows a line to the operator and records it. -/
def showLine (line : String) : Control Unit := do
  act (.forward line)
  act (.log (.output line))

namespace Instance

/-- The record in a debugger's line, read only for the automation. -/
def record? (i : Instance) (line : String) : Option Record :=
  if i.automated then Record.read? line else none

/-- The token and the requester of the request that a record answers. -/
def answered? (i : Instance) (record : Option Record) : Option (Nat × Nat × Record) := do
  let r ← record
  if r.kind = .result then
    let token := (← r.token).toNat
    some (token, ← i.pending.find? token, r)
  else none

/-- A line of the debugger that answers no request of the worker. -/
def onOtherLine (c : Config) (i : Instance) (line : String) (record : Option Record) :
    Control Instance := do
  showLine line
  let (commands, mux) := i.mux.observe line
  sendAll c commands
  if i.automated then
    if !i.mux.sentInitial && mux.sentInitial then
      act (.notify .attach)
    match record.bind Record.breakpointHit? with
    | some id => act (.notify (.stopped id))
    | none => pure ()
  pure { i with mux }

/-- A line of the debugger. -/
def onLine (c : Config) (i : Instance) (line : String) : Control Instance := do
  let record := i.record? line
  match i.answered? record with
  | some (token, requester, r) =>
    act (.log (.output line))
    act (.reply requester (some r))
    pure { i with pending := i.pending.erase token }
  | none => i.onOtherLine c line record

/-- A request of the worker. -/
def onRequest (i : Instance) (command : String) (requester : Nat) : Control Instance := do
  let line := Text.decimal i.nextToken ++ command
  let i' := { i with nextToken := i.nextToken + 1 }
  if ← act (.write line) then
    act (.log (.command line))
    pure { i' with pending := i.pending.insert i.nextToken requester }
  else
    act (.reply requester none)
    pure i'

/-- A line of the operator. -/
def onInput (c : Config) (i : Instance) (line : String) : Control Unit := do
  let command := Text.trimmed line
  match if i.automated then consoleInput? command else none with
  | none => sendCommand c command
  | some (token, text) =>
    if ← act (.handles text) then
      act (.log (.command command))
      act (.notify (.userCommand token text))
    else sendCommand c command

/-- What an event of the own generation, or of the operator, leads to. -/
def onEvent (c : Config) (i : Instance) : Event → Control (Instance × Option InstanceEnd)
  | .debuggerLine g line => do
    if g = i.generation then return (← i.onLine c line, none) else return (i, none)
  | .debuggerClosed g => return (i, if g = i.generation then some .exited else none)
  | .input line => do
    i.onInput c line
    return (i, none)
  | .inputClosed => return (i, some .inputClosed)
  | .automationRequest g command requester => do
    if g = i.generation then return (← i.onRequest command requester, none)
    else
      act (.reply requester none)
      return (i, none)
  | .automationOutput g line => do
    if g = i.generation then
      showLine (consoleRecord line)
    return (i, none)
  | .automationDone g completion => do
    if g = i.generation then
      showLine (resultRecord completion.token completion.error)
    return (i, none)

end Instance

end KernelProbe.Session
