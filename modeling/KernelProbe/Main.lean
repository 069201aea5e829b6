import KernelProbe.CommandLine.Perform

/-!
# The program

Carries out the arguments of the command line over the files of the system. Sessions end at
their first process, because this program starts none.
-/

namespace KernelProbe.Main

open CommandLine Session

/-- The wording of a failure of the system. -/
def causeText : IO.Error → String
  | .noFileOrDirectory .. => "No such file or directory (os error 2)"
  | .permissionDenied .. => "Permission denied (os error 13)"
  | .inappropriateType .. => "Is a directory (os error 21)"
  | e => e.toString

/-- The answer of an action that may fail. -/
def attempt {α : Type} (action : IO α) : IO (Except String α) := do
  match ← action.toBaseIO with
  | .ok a => pure (.ok a)
  | .error e => pure (.error (causeText e))

/-- Answers a call of an invocation. -/
def answerShell : (c : ShellCall) → IO c.Answer
  | .readFile path => do
    return (← attempt (IO.FS.readBinFile path)).map ByteArray.toList
  | .writeFile path text => attempt (IO.FS.writeFile path text)
  | .printLine line => IO.println line
  | .homeDirectory => return homeDirectory (← IO.getEnv "HOME") none

/-- The cause for which no process is started. -/
def noProcesses : String := "Function not implemented (os error 38)"

/-- Answers an action of a session; there is no debugger to act on. -/
def answerAction (log : IO.Ref (Option String)) : (a : Action) → IO a.Answer
  | .write _ => pure false
  | .forward line => IO.println line
  | .log entry => do
    match ← log.get with
    | none => pure ()
    | some path =>
      let text := String.join (entry.lines.map (· ++ "\n"))
      let append := IO.FS.withFile path .append fun file => file.putStr text
      if (← attempt append).isOk then pure () else log.set none
  | .notify _ => pure ()
  | .reply .. => pure ()
  | .handles _ => pure false
  | .terminate => pure ()

/-- Answers a call of a session. -/
def answerSystem (log : IO.Ref (Option String)) : (c : SystemCall) → IO c.Answer
  | .act a => answerAction log a
  | .createTranscript path => do
    log.set (some path)
    attempt (IO.FS.writeFile path "")
  | .spawn .. => pure (.error noProcesses)
  | .emulatorStatus => pure none
  | .awaitEvent => pure (.event .inputClosed)
  | .awaitDebugger => pure ()
  | .awaitEmulator => pure ()
  | .pause _ => pure false

/-- Runs a session to its end. -/
partial def runSession (log : IO.Ref (Option String)) (c : Session.Config) :
    Phase → IO Report
  | .ended result => pure (.ofSession result)
  | phase => do runSession log c (← (Session.step c phase).interpret (answerSystem log))

/-- The report of the arguments. -/
def reportOf (arguments : List String) : IO Report := do
  match Invocation.read arguments with
  | .error halt => pure (.ofHalt halt)
  | .ok invocation =>
    match ← invocation.perform.interpret answerShell with
    | .done => pure .success
    | .failed f => pure (.ofFailure f)
    | .session c =>
      let log ← IO.mkRef none
      runSession log c (← (Session.start c).interpret (answerSystem log))

end KernelProbe.Main

/-- The program. -/
def main (arguments : List String) : IO UInt32 := do
  let report ← KernelProbe.Main.reportOf arguments
  IO.print report.output
  IO.eprint report.errors
  pure report.exitCode.toUInt32
