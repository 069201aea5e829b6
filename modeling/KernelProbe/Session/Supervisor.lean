import KernelProbe.Session.Control

/-!
# The supervisor

A session starts the emulator once and a debugger after the other: when one ends and the
emulator still runs, the next one starts after a pause. The session ends when the emulator is
found to have ended, when the operator interrupts it, or when the operator's input ends; the
debugger of the moment is always made to end first, and after an interrupt the emulator is
waited for.

`start` and `step` are programs over the processes. A session goes on by steps until its phase
is `ended`.
-/

namespace KernelProbe.Session

open Debugger

/-- Why a session cannot start or go on. -/
inductive StartError
  /-- The transcript cannot be created. -/
  | transcript (path cause : String)
  /-- A command line has no program. -/
  | emptyCommand (role : Role)
  /-- A process cannot be started. -/
  | spawn (role : Role) (commandLine cause : String)
  deriving DecidableEq, Repr

/-- The wording of a start error. -/
def StartError.message : StartError → String
  | .transcript path cause => s!"Failed to create transcript {path}: {cause}"
  | .emptyCommand role => s!"{role.name} command line is empty"
  | .spawn role commandLine cause =>
    s!"failed to spawn {role.name} " ++ "`" ++ commandLine ++ "`: " ++ cause

/-- The error that led to a start error and is kept beside its wording. -/
def StartError.cause? : StartError → Option String
  | .spawn _ _ cause => some cause
  | _ => none

/-- Why a session ended. -/
inductive SessionEnd
  /-- The emulator had ended, with this code. -/
  | emulatorExited (code : Nat)
  /-- The operator interrupted the session. -/
  | interrupted
  /-- The operator's input ended. -/
  | inputClosed
  deriving DecidableEq, Repr

/-- What a session waits for. -/
inductive Stimulus
  | interrupt
  | event (e : Event)

/-- What a session asks of its surroundings. -/
inductive SystemCall where
  /-- An action of the control loop. -/
  | act (a : Action)
  /-- Create the transcript, or say why that failed. -/
  | createTranscript (path : String)
  /-- Start a process, or say why that failed. -/
  | spawn (role : Role) (commandLine : List String)
  /-- The code with which the emulator ended, if it did. -/
  | emulatorStatus
  /-- Wait for the next event. -/
  | awaitEvent
  /-- Wait for the end of the debugger. -/
  | awaitDebugger
  /-- Wait for the end of the emulator. -/
  | awaitEmulator
  /-- Pause before the next debugger; the answer says whether the operator interrupted it. -/
  | pause (milliseconds : Nat)

/-- The answer to a system call. -/
abbrev SystemCall.Answer : SystemCall → Type
  | .act a => a.Answer
  | .createTranscript _ => Except String Unit
  | .spawn .. => Except String Unit
  | .emulatorStatus => Option Nat
  | .awaitEvent => Stimulus
  | .awaitDebugger => Unit
  | .awaitEmulator => Unit
  | .pause _ => Bool

/-- The interface of the supervisor. -/
abbrev system : Interface := ⟨SystemCall, SystemCall.Answer⟩

/-- The program of one system call. -/
def ask (c : SystemCall) : Program system c.Answer :=
  .ask system c

/-- A program of the control loop as one of the supervisor. -/
def control {α : Type} (p : Control α) : Program system α :=
  p.substitute fun a => ask (.act a)

/-- How far a session has come. -/
inductive Phase where
  /-- The next debugger starts, after the one of this generation, if the emulator still runs. -/
  | starting (generation : Nat)
  /-- A debugger runs. -/
  | running (i : Instance)
  /-- The session was interrupted and waits for the emulator. -/
  | leaving
  /-- The session has ended. -/
  | ended (result : Except StartError SessionEnd)

/-- Starts a process. -/
def launch (role : Role) (commandLine : List String) :
    Program system (Except StartError Unit) :=
  match commandLine with
  | [] => pure (.error (.emptyCommand role))
  | _ => do
    match ← ask (.spawn role commandLine) with
    | .ok () => pure (.ok ())
    | .error cause => pure (.error (.spawn role (String.intercalate " " commandLine) cause))

/-- Creates the transcript, if there is to be one. -/
def openTranscript (c : Config) : Program system (Except StartError Unit) :=
  match c.transcript with
  | none => pure (.ok ())
  | some path => do
    match ← ask (.createTranscript path) with
    | .error cause => pure (.error (.transcript path cause))
    | .ok () =>
      control (act (.log (.root c.root)))
      pure (.ok ())

/-- Creates the transcript and starts the emulator. -/
def start (c : Config) : Program system Phase := do
  match ← openTranscript c with
  | .error e => pure (.ended (.error e))
  | .ok () =>
    match ← launch .emulator c.emulator with
    | .error e => pure (.ended (.error e))
    | .ok () => pure (.starting 0)

/-- Makes the debugger end and waits for it. -/
def endDebugger : Program system Unit := do
  control (act .terminate)
  ask .awaitDebugger

/-- One step of a session. -/
def step (c : Config) : Phase → Program system Phase
  | .starting generation => do
    match ← ask .emulatorStatus with
    | some code => pure (.ended (.ok (.emulatorExited code)))
    | none =>
      match ← launch .debugger c.debugger with
      | .error e => pure (.ended (.error e))
      | .ok () => pure (.running (.new c (generation + 1)))
  | .running i => do
    match ← ask .awaitEvent with
    | .interrupt =>
      endDebugger
      pure .leaving
    | .event e =>
      match ← control (i.onEvent c e) with
      | (i, none) => pure (.running i)
      | (i, some .exited) =>
        ask .awaitDebugger
        if ← ask (.pause c.restartDelay) then pure .leaving else pure (.starting i.generation)
      | (_, some .inputClosed) =>
        endDebugger
        pure (.ended (.ok .inputClosed))
  | .leaving => do
    ask .awaitEmulator
    pure (.ended (.ok .interrupted))
  | .ended result => pure (.ended result)

end KernelProbe.Session
