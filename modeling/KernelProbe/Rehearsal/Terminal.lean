import KernelProbe.CommandLine.Perform
import KernelProbe.Rehearsal.FileSystem

/-!
# Rehearsed command lines

A terminal carries out an invocation in a file system for rehearsals. A session gets an operator
whose input ends at once, an emulator that runs on, and debuggers that say nothing.
-/

namespace KernelProbe.Rehearsal

open CommandLine Session

/-- A terminal: its files, and the file that a session is recorded in. -/
structure Terminal where
  files : FileSystem
  /-- The place of the transcript, as long as it takes lines. -/
  log : Option Parts

namespace Terminal

/-- A terminal over files. -/
def new (files : FileSystem) : Terminal := ⟨files, none⟩

/-- The outcome of something that changes the files. -/
def outcome {α : Type} (t : Terminal) :
    Except FileError (α × FileSystem) → Except String α × Terminal
  | .ok (a, files) => (.ok a, { t with files })
  | .error e => (.error e.message, t)

/-- Prints a text. -/
def print (t : Terminal) (text : String) : Terminal :=
  { t with files := { t.files with output := t.files.output ++ [text] } }

/-- The path of the home directory, where the program runs. -/
def home (t : Terminal) : String :=
  String.join (t.files.here.map ("/" ++ ·))

/-- Answers a call of an invocation. -/
def answerShell : (c : ShellCall) → Terminal → c.Answer × Terminal
  | .readFile path, t => t.outcome (t.files.read path)
  | .writeFile path text, t => t.outcome ((t.files.write path text).map ((), ·))
  | .printLine line, t => ((), t.print (line ++ "\n"))
  | .homeDirectory, t => (homeDirectory (some t.home) none, t)

/-- Records a line of a session; the first one that cannot be written ends the recording. -/
def recordLine (t : Terminal) (line : String) : Terminal :=
  match t.log with
  | none => t
  | some parts =>
    match t.files.append parts (line ++ "\n") with
    | .ok files => { t with files }
    | .error _ => { t with log := none }

/-- Carries out an action of a session. -/
def answerAction : (a : Action) → Terminal → a.Answer × Terminal
  | .write _, t => (true, t)
  | .forward line, t => ((), t.print (line ++ "\n"))
  | .log entry, t => ((), entry.lines.foldl recordLine t)
  | .notify _, t => ((), t)
  | .reply .., t => ((), t)
  | .handles _, t => (false, t)
  | .terminate, t => ((), t)

/-- Starts to record a session in the file at a path. -/
def startLog (t : Terminal) (path : String) : Except String Unit × Terminal :=
  match t.files.create path with
  | .ok (parts, files) => (.ok (), ⟨files, some parts⟩)
  | .error e => (.error e.message, t)

/-- Answers a call of a session that runs in a folder. -/
def answerSystem (folder : String) : (c : SystemCall) → Terminal → c.Answer × Terminal
  | .act a, t => answerAction a t
  | .createTranscript path, t => t.startLog path
  | .spawn _ commandLine, t =>
    t.outcome ((t.files.checkSpawn folder commandLine).map (·, t.files))
  | .emulatorStatus, t => (none, t)
  | .awaitEvent, t => (.event .inputClosed, t)
  | .awaitDebugger, t => ((), t)
  | .awaitEmulator, t => ((), t)
  | .pause _, t => (false, t)

/-- Steps of a session, at most so many. -/
def goOn (c : Session.Config) : (fuel : Nat) → Phase → Terminal → Phase × Terminal
  | 0, phase, t => (phase, t)
  | fuel + 1, phase, t =>
    let (phase, t) := Program.run (answerSystem c.root) (Session.step c phase) t
    goOn c fuel phase t

/-- Runs a session; it starts, has a debugger, and sees the end of the input. -/
def session (c : Session.Config) (t : Terminal) : Report × Terminal :=
  let (phase, t) := Program.run (answerSystem c.root) (Session.start c) t
  match goOn c 3 phase t with
  | (.ended result, t) => (.ofSession result, t)
  | (_, t) => (.success, t)

/-- Carries out the arguments of the program. -/
def run (t : Terminal) (arguments : List String) : Report × Terminal :=
  match Invocation.read arguments with
  | .error halt => (.ofHalt halt, t)
  | .ok invocation =>
    match Program.run answerShell invocation.perform t with
    | (.done, t) => (.success, t)
    | (.failed f, t) => (.ofFailure f, t)
    | (.session c, t) => session c t

/-- All that stands on the standard output. -/
def outputText (t : Terminal) (r : Report) : String :=
  String.join t.files.output ++ r.output

/-- All that stands on the standard error. -/
def errorText (t : Terminal) (r : Report) : String :=
  String.join t.files.errors ++ r.errors

end Terminal

end KernelProbe.Rehearsal
