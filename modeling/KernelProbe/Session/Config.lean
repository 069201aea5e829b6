import KernelProbe.Automation.Config
import KernelProbe.Session.Multiplexer

/-!
# Configuration of a session

The processes that a session starts, the commands that it sends first, and where it records
them.
-/

namespace KernelProbe.Session

/-- The commands sent at the first prompt if a script of the debugger does the automation. -/
def defaultInitialCommands : List String :=
  ["100-gdb-set mi-async on", "102-target-select remote localhost:5000",
    "101-interpreter-exec console \"python exec(open('tools/qemu_gdb_onlaunch.py').read())\""]

/-- The commands sent at the first prompt if the session does the automation: those that connect
    to the target. -/
def automationInitialCommands : List String :=
  defaultInitialCommands.take 2

/-- The home directory of a user: the one that the environment names, unless that is empty, and
    otherwise the one of the account. -/
def homeDirectory (named account : Option String) : Option String :=
  named.filter (· ≠ "") <|> account

/-- The root directory under a home directory. -/
def defaultRoot (home : String) : String :=
  home ++ "/Enkel/"

/-- The file that sessions are recorded in. -/
def defaultTranscript : String := "/tmp/vs_gdb_log.txt"

/-- The configuration of a session. -/
structure Config where
  /-- The directory in which the processes run. -/
  root : String
  /-- The command line of the debugger. -/
  debugger : List String
  /-- The command line of the emulator. -/
  emulator : List String := ["sh", "run.sh"]
  /-- The commands to send at the first prompt of each debugger. -/
  initialCommands : List String := defaultInitialCommands
  markers : Markers := {}
  /-- The file to record the session in, if any. -/
  transcript : Option String := some defaultTranscript
  /-- The pause between a debugger and the next one, in milliseconds. -/
  restartDelay : Nat := 500
  /-- The automation of the session, unless a script of the debugger does it. -/
  automation : Option Automation.Config := none
  deriving DecidableEq, Repr

/-- The configuration with an automation, whose initial commands only connect to the target. -/
def Config.withAutomation (c : Config) (automation : Automation.Config) : Config :=
  { c with initialCommands := automationInitialCommands, automation := some automation }

end KernelProbe.Session
