import KernelProbe.Text.Search

/-!
# What the debugger's lines give rise to

The multiplexer looks at the debugger's lines for two things. At the first prompt it has the
initial commands sent. A stop where a module is loaded makes it wait for the next prompt, at
which it has the target go on; this second part is switched off where the automation lets the
target go on itself.
-/

namespace KernelProbe.Session

open Text

/-- The texts by which lines are told apart. -/
structure Markers where
  /-- In a prompt. -/
  prompt : String := "(gdb)"
  /-- In a stop at a breakpoint. -/
  breakpointHit : String := "stopped,reason=\"breakpoint-hit"
  /-- In a stop where a module is loaded. -/
  loadHook : String := "OnBinaryLoadHook_Inner"
  deriving DecidableEq, Repr

/-- The command that lets the target go on. -/
def continueCommand : String := "-exec-continue"

/-- What the multiplexer knows of the lines so far. -/
structure Multiplexer where
  markers : Markers
  initialCommands : List String
  /-- Whether a stop where a module is loaded makes the target go on at the next prompt. -/
  autoContinue : Bool
  /-- Whether a prompt has come. -/
  sentInitial : Bool
  /-- Whether a stop waits for the next prompt. -/
  loadPending : Bool

namespace Multiplexer

/-- The multiplexer before the first line. -/
def new (markers : Markers) (initialCommands : List String) (autoContinue : Bool) :
    Multiplexer where
  markers := markers
  initialCommands := initialCommands
  autoContinue := autoContinue
  sentInitial := false
  loadPending := false

/-- Whether a line is a prompt. -/
def isPrompt (m : Multiplexer) (line : String) : Bool :=
  contains line m.markers.prompt

/-- Whether a line is a stop where a module is loaded. -/
def isLoad (m : Multiplexer) (line : String) : Bool :=
  contains line m.markers.breakpointHit && contains line m.markers.loadHook

/-- Takes a line; gives the commands to send. -/
def observe (m : Multiplexer) (line : String) : List String × Multiplexer :=
  let prompt := m.isPrompt line
  let pending := m.loadPending || (m.autoContinue && m.isLoad line)
  let first := if prompt && !m.sentInitial then m.initialCommands else []
  let resume := if prompt && pending then [continueCommand] else []
  (first ++ resume, { m with
    sentInitial := m.sentInitial || prompt
    loadPending := pending && !prompt })

end Multiplexer

end KernelProbe.Session
