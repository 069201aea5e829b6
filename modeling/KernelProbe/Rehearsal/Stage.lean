import KernelProbe.Rehearsal.FileSystem
import KernelProbe.Rehearsal.Part
import KernelProbe.Session.Pump
import KernelProbe.Session.Supervisor

/-!
# Rehearsed sessions

A stage stands for all that a session talks to: the emulator, the debugger with its part, the
operator and the worker. `Stage.settle` lets a session go on until nothing happens any more
without the operator. Events come in the order in which they arise, and the debugger takes a
line only when the session has no event left.
-/

namespace KernelProbe.Rehearsal

open Debugger Session

/-- The surroundings of a rehearsed session. -/
structure Stage where
  part : Part
  files : FileSystem
  /-- The root directory. -/
  root : String
  /-- The configuration of the worker, if the session does the automation. -/
  automation : Option Automation.Config
  /-- The code with which the emulator ended, if it did. -/
  emulatorCode : Option Nat
  /-- The number of debuggers started so far. -/
  generation : Nat
  actor : Actor
  /-- The standard output of the debugger. -/
  output : Pump
  /-- The standard error of the debugger. -/
  errors : Pump
  worker : Option Thread
  /-- The number of requests that workers made so far. -/
  requests : Nat
  /-- The operator's input. -/
  operator : Pump
  /-- Whether the operator interrupted the session. -/
  interrupted : Bool
  /-- The events that have not been handled, oldest first. -/
  queue : List Event
  /-- The lines that the operator sees, oldest first. -/
  shown : List String
  transcript : Transcript

namespace Stage

/-- A stage before the session starts. -/
def new (part : Part) (files : FileSystem) (root : String)
    (automation : Option Automation.Config) : Stage where
  part := part
  files := files
  root := root
  automation := automation
  emulatorCode := none
  generation := 0
  actor := .gone
  output := .closed
  errors := .closed
  worker := none
  requests := 0
  operator := .new
  interrupted := false
  queue := []
  shown := []
  transcript := .off

/-- The stage with further events. -/
def enqueue (s : Stage) (events : List Event) : Stage :=
  { s with queue := s.queue ++ events }

/-- Lines of the debugger as events. -/
def lineEvents (s : Stage) (lines : List String) : List Event :=
  lines.map (.debuggerLine s.generation)

/-- The event of the standard output having closed, if that happened between two states. -/
def closeEvents (s : Stage) (before after : Pump) : List Event :=
  if before.isOpen && !after.isOpen then [.debuggerClosed s.generation] else []

/-- What the debugger wrote. -/
def hear (s : Stage) (w : Written) : Stage :=
  let (lines, output) := s.output.feed w.output
  let (errorLines, errors) := s.errors.feed w.errors
  { s with output, errors }.enqueue
    (s.lineEvents lines ++ s.lineEvents errorLines ++ s.closeEvents s.output output)

/-- The end of the debugger, unless it has ended. -/
def closeOutputs (s : Stage) : Stage :=
  let (lines, output) := s.output.finish
  let (errorLines, errors) := s.errors.finish
  { s with actor := .gone, output, errors }.enqueue
    (s.lineEvents lines ++ s.lineEvents errorLines ++ s.closeEvents s.output output)

/-- The stage after the debugger took a line or started. -/
def afterActor (s : Stage) (a : Actor) (w : Written) : Stage :=
  let s := { s with actor := a }.hear w
  if a.isRunning then s else s.closeOutputs

/-- What the worker sent. -/
def deliver (s : Stage) (sent : List WorkerMessage) : Stage :=
  sent.foldl (fun s m =>
    match m with
    | .request command =>
      { s with requests := s.requests + 1 }.enqueue
        [.automationRequest s.generation command s.requests]
    | .output line => s.enqueue [.automationOutput s.generation line]
    | .finished c => s.enqueue [.automationDone s.generation c]) s

/-- The stage after the worker was told or answered something. -/
def withWorker (s : Stage) (f : Thread → List WorkerMessage × Thread) : Stage :=
  match s.worker with
  | none => s
  | some t =>
    let (sent, t) := f t
    { s with worker := some t }.deliver sent

/-- Carries out an action of the control loop. -/
def act : (a : Action) → Stage → a.Answer × Stage
  | .write line, s =>
    match s.actor.write? line with
    | some actor => (true, { s with actor })
    | none => (false, s)
  | .forward line, s => ((), { s with shown := s.shown ++ linesOf line })
  | .log entry, s => ((), { s with transcript := s.transcript.record true entry })
  | .notify event, s => ((), s.withWorker (·.notify event))
  | .reply requester record, s =>
    ((), if requester + 1 = s.requests then s.withWorker (·.answer record) else s)
  | .handles text, s =>
    (s.worker.any fun t => Session.handles t.commands text, s)
  | .terminate, s => ((), s.closeOutputs)

/-- Starts the next debugger. -/
def startDebugger (s : Stage) : Stage :=
  let generation := s.generation + 1
  let (actor, written) := Actor.start s.part generation
  let s := { s with
    generation
    output := .new
    errors := .new
    worker := s.automation.map .new }
  s.afterActor actor written

/-- Starts a process in the root directory. -/
def spawn (s : Stage) (role : Role) (commandLine : List String) :
    Except String Unit × Stage :=
  match s.files.checkSpawn s.root commandLine with
  | .error e => (.error e.message, s)
  | .ok () => (.ok (), if role = .debugger then s.startDebugger else s)

/-- The next event, or the interrupt. -/
def nextStimulus (s : Stage) : Stimulus × Stage :=
  if s.interrupted then (.interrupt, s)
  else
    match s.queue with
    | [] => (.interrupt, s)
    | e :: queue => (.event e, { s with queue })

/-- Answers a call of the session. -/
def answer : (c : SystemCall) → Stage → c.Answer × Stage
  | .act a, s => act a s
  | .createTranscript _, s => (.ok (), { s with transcript := .on [] })
  | .spawn role commandLine, s => s.spawn role commandLine
  | .emulatorStatus, s => (s.emulatorCode, s)
  | .awaitEvent, s => s.nextStimulus
  | .awaitDebugger, s => ((), { s with actor := .gone, worker := none })
  | .awaitEmulator, s => ((), s)
  | .pause _, s => (s.interrupted, s)

/-- Carries out a program of a session. -/
def run {α : Type} (s : Stage) (p : Program system α) : α × Stage :=
  Program.run answer p s

/-- Whether a session can go on from its phase. -/
def isReady (s : Stage) : Phase → Bool
  | .starting _ => true
  | .running _ => s.interrupted || !s.queue.isEmpty
  | .leaving => s.emulatorCode.isSome
  | .ended _ => false

/-- Lets a session go on until it waits for the operator, for at most `fuel` steps. -/
def settle (c : Session.Config) : (fuel : Nat) → Phase → Stage → Phase × Stage
  | 0, phase, s => (phase, s)
  | fuel + 1, phase, s =>
    if s.isReady phase then
      let (phase, s) := s.run (Session.step c phase)
      settle c fuel phase s
    else
      match s.actor.takeLine? with
      | some (actor, written) => settle c fuel phase (s.afterActor actor written)
      | none => (phase, s)

/-- Bytes of the operator's input. -/
def type (s : Stage) (bytes : List UInt8) : Stage :=
  let (lines, operator) := s.operator.feed bytes
  let closing := if s.operator.isOpen && !operator.isOpen then [Event.inputClosed] else []
  { s with operator }.enqueue (lines.map Event.input ++ closing)

/-- The end of the operator's input. -/
def closeInput (s : Stage) : Stage :=
  let (lines, operator) := s.operator.finish
  let closing := if s.operator.isOpen then [Event.inputClosed] else []
  { s with operator }.enqueue (lines.map Event.input ++ closing)

end Stage

end KernelProbe.Rehearsal
